import MightyColab.Job.PlanHash
import MightyColab.Job.PlanSecrecy

/-!
# The gates of an apply

What `job apply` asks of a plan file before it looks at the source: that the plan can be
loaded, that a bundle has its source exclusion, that the plan has its recorded hash, and
that its own diagnostics let it through.
-/

namespace MightyColab
namespace Job

open Lib
open PlanDump PlanStore PlanHash

def Plan.hashInput (plan : Plan) : HashInput :=
  ⟨plan.spec, plan.sourceSpecPath, plan.sourceFiles⟩

namespace PlanGates

/-- What `apply` says when it does not start. -/
structure Refused where
  reason : String
  message : String
  diagnostics : List Diagnostic := []

def firstTwelve (digest : String) : String := String.ofList (digest.toList.take 12)

variable (tools : UrlTools)

/-- The gates of `apply` after a plan is loaded. -/
def planGates (p : Plan) : Except Refused Unit :=
  let actual := planHash tools p.hashInput
  if p.spec.code.kind = .bundle ∧ p.sourceSpecPath = none then
    .error
      { reason := "plan_refused"
        message := "[colab] This bundle plan lacks its protected source exclusion. " ++
          "Re-run job plan to produce a fresh one." }
  else if actual ≠ p.specHash then
    .error
      { reason := "plan_refused"
        message := "[colab] This plan file is inconsistent: its spec does not match " ++
          s!"its own recorded hash (recorded {firstTwelve p.specHash}, spec hashes " ++
          s!"to {firstTwelve actual}). The plan was modified or truncated after it " ++
          "was written. Re-run job plan to produce a fresh one." }
  else if p.hasErrors = true then
    .error
      { reason := "plan_refused"
        message := "[colab] This plan has errors and will not be applied. " ++
          "Fix the spec and re-plan."
        diagnostics := p.diagnostics.filter (·.severity = .error) }
  else if p.hasWarnings = true ∧ p.spec.ignoreWarnings = false then
    .error
      { reason := "plan_refused"
        message := "[colab] This plan has warnings. Set ignore_warnings: true in the " ++
          "spec to accept them explicitly."
        diagnostics := p.diagnostics.filter (·.severity = .warn) }
  else .ok ()

/-- `apply` up to its look at the source: the plan that it goes on with. -/
def gatedPlan (model : PlanModel) (files : Files) : Except Refused Plan :=
  match loadPlanFile tools model files with
  | .error problem =>
      .error
        { reason := "plan_unreadable"
          message := s!"[colab] Could not load protected plan: {problem}" }
  | .ok p => (planGates tools p).map fun _ => p

/-!
## What passes
-/

variable {tools} {model : PlanModel} {files : Files} {plan edited : Plan}

/-- The plan's own diagnostics let it through. -/
def Accepted (plan : Plan) : Prop :=
  plan.hasErrors = false ∧ (plan.hasWarnings = true -> plan.spec.ignoreWarnings = true)

theorem planGates_eq_ok :
    planGates tools plan = .ok () <->
      (plan.spec.code.kind = .bundle -> plan.sourceSpecPath ≠ none) ∧
        planHash tools plan.hashInput = plan.specHash ∧ Accepted plan := by
  unfold planGates Accepted
  dsimp only
  split
  · next hbundle => exact iff_of_false nofun fun h => h.1 hbundle.1 hbundle.2
  · next hbundle =>
      split
      · next hhash => exact iff_of_false nofun fun h => hhash h.2.1
      · next hhash =>
          split
          · next herrors => exact iff_of_false nofun fun h => by simp [h.2.2.1] at herrors
          · next herrors =>
              split
              · next hwarnings =>
                  refine iff_of_false nofun fun h => ?_
                  simp [h.2.2.2 hwarnings.1] at hwarnings
              · next hwarnings =>
                  refine iff_of_true rfl ⟨?_, not_not.mp hhash, by simpa using herrors, ?_⟩
                  · intro hkind hpath
                    exact hbundle ⟨hkind, hpath⟩
                  · intro hwarn
                    cases hignore : plan.spec.ignoreWarnings with
                    | true => rfl
                    | false => exact absurd ⟨hwarn, hignore⟩ hwarnings

theorem gatedPlan_eq_ok :
    gatedPlan tools model files = .ok plan <->
      loadPlanFile tools model files = .ok plan ∧ planGates tools plan = .ok () := by
  unfold gatedPlan
  split
  · next problem hload =>
      rw [hload]
      exact iff_of_false nofun fun h => nomatch h.1
  · next loaded hload =>
      rw [hload, Except.ok.injEq]
      constructor
      · intro h
        cases hgates : planGates tools loaded with
        | error refused =>
            rw [hgates] at h
            cases h
        | ok u =>
            rw [hgates] at h
            cases h
            exact ⟨rfl, hgates⟩
      · rintro ⟨rfl, hgates⟩
        rw [hgates]
        rfl

/-!
## What the hash does not bind
-/

/-- The two texts differ in their queries at most. -/
structure SameButQuery (u v : String) : Prop where
  scheme : (Url.parts u.toList).scheme = (Url.parts v.toList).scheme
  netloc : (Url.parts u.toList).netloc = (Url.parts v.toList).netloc
  path : (Url.parts u.toList).path = (Url.parts v.toList).path
  fragment : (Url.parts u.toList).fragment = (Url.parts v.toList).fragment

/-- The network location, as it is spelled and with its user, and the fragment. -/
structure SameSpelling (u v : String) : Prop where
  netloc : (Url.parts u.toList).netloc = (Url.parts v.toList).netloc
  fragment : (Url.parts u.toList).fragment = (Url.parts v.toList).fragment

variable {u v : String}

theorem noColon_scheme {p : Url.Parts} (h : Url.Shape p) : ':' ∉ p.scheme := by
  intro hmem
  rcases h.scheme with hnil | ⟨hscheme, _⟩
  · rw [hnil] at hmem
    cases hmem
  · exact absurd (Url.isScheme_schemeChar hscheme _ hmem) (by decide)

theorem urlsplit_isSome (h : (Url.parts u.toList).netloc = (Url.parts v.toList).netloc) :
    (tools.urlsplit u).isSome = (tools.urlsplit v).isSome := by
  unfold UrlTools.urlsplit Url.urlsplit
  rw [h]
  split <;> rfl

/-- The canonical form binds the scheme and the path; the network location is bound up to
its spelling. -/
theorem sameButQuery_iff (h : tools.canonicalUrl u = tools.canonicalUrl v) :
    SameButQuery u v <-> SameSpelling u v := by
  constructor
  · intro hsame
    exact ⟨hsame.netloc, hsame.fragment⟩
  · rintro ⟨hnetloc, hfragment⟩
    have hlist := congrArg String.toList h
    have hsome := @urlsplit_isSome tools u v hnetloc
    cases hu : tools.urlsplit u with
    | none =>
        rw [hu, Option.isSome_none, eq_comm, Option.isSome_eq_false_iff,
          Option.isNone_iff_eq_none] at hsome
        rw [UrlTools.canonicalUrl_none hu, UrlTools.canonicalUrl_none hsome] at hlist
        have hcut := @Url.parts_cut u.toList [] (Or.inl rfl)
        have hcut' := @Url.parts_cut v.toList [] (Or.inl rfl)
        rw [← hlist] at hcut'
        exact ⟨hcut.1.symm.trans hcut'.1, hnetloc, hcut.2.2.symm.trans hcut'.2.2, hfragment⟩
    | some p =>
        rw [hu, Option.isSome_some, eq_comm, Option.isSome_iff_exists] at hsome
        rcases hsome with ⟨q, hv⟩
        rw [UrlTools.canonicalUrl_some hu, UrlTools.canonicalUrl_some hv] at hlist
        have hscheme := congrArg (Url.before ':') hlist
        rw [Url.before_append (noColon_scheme (UrlTools.urlsplit_shape hu)),
          Url.before_append (noColon_scheme (UrlTools.urlsplit_shape hv))] at hscheme
        have hhost : p.netloc = q.netloc := by
          rw [(UrlTools.urlsplit_eq hu).1, (UrlTools.urlsplit_eq hv).1, hnetloc]
        rw [hscheme, UrlTools.hostText, UrlTools.hostText, hhost, List.append_cancel_left_eq,
          List.cons.injEq, List.cons.injEq, List.cons.injEq, List.append_cancel_left_eq] at hlist
        have hpath := hlist.2.2.2
        rw [(UrlTools.urlsplit_eq hu).1, (UrlTools.urlsplit_eq hv).1] at hscheme hpath
        exact ⟨hscheme, hnetloc, hpath, hfragment⟩

/-- Both plans run the same job: the same spec up to the queries of its URLs, on the same
source, under the same id. -/
structure SameJob (p q : Plan) : Prop where
  jobId : p.jobId = q.jobId
  spec : p.spec.Agrees SameButQuery q.spec
  sourceSpecPath : p.sourceSpecPath = q.sourceSpecPath
  sourceFiles : p.sourceFiles = q.sourceFiles

/-- A plan as `job plan` leaves it. Its spec holds no references, and the expiry texts are
times. -/
structure Written (tools : UrlTools) (model : PlanModel) (plan : Plan) : Prop where
  hash : plan.specHash = planHash tools plan.hashInput
  keeps : model.Keeps plan
  unreferenced : Unreferenced tools plan
  expiry : forall text, text ∈ plan.expiryTexts -> tools.hasUrlQuery text = false

theorem Written.loaded (hwritten : Written tools model plan)
    (hcollision : NoCollision tools plan) (hrecognised : Recognised tools plan.spec.urls) :
    loadPlanFile tools model (writePlanFile tools plan) = .ok plan := by
  rw [loadPlanFile_written_iff hwritten.keeps hwritten.unreferenced hcollision]
  intro w hw hquery
  rcases List.mem_append.mp hw with hspec | hexpiry
  · exact hrecognised w hspec hquery
  · rw [hwritten.expiry w hexpiry] at hquery
    cases hquery

theorem credentialRequired_unrecognised (h : tools.isRedactedUrl (tools.redactedUrl u) = false) :
    credentialRequired tools (tools.redactedUrl u) = false := by
  have hquery : tools.hasUrlQuery (tools.redactedUrl u) = false := by
    unfold UrlTools.hasUrlQuery
    split
    · simpa using @UrlTools.redactedUrl_noQuestion tools u
    · next p hsplit =>
        rw [(UrlTools.urlsplit_eq hsplit).1, PlanSecrecy.redactedUrl_query]
        rfl
  rw [credentialRequired, hquery, h]
  rfl

theorem Written.recognised {loaded : Plan} (hwritten : Written tools model plan)
    (hgated : gatedPlan tools model (writePlanFile tools plan) = .ok loaded)
    (hdistinct : Distinct tools loaded.hashInput plan.hashInput) :
    Recognised tools plan.spec.urls := by
  intro w hw hquery
  rcases gatedPlan_eq_ok.mp hgated with ⟨hload, hgates⟩
  rcases loadPlanFile_ok hload with ⟨payload, secrets, result, hpayload, _, hresult, hvalid⟩
  have hdoc : payload = ofPlan (plan.mapUrls (redactOne tools)) := by
    cases hpayload
    exact redact_doc tools plan
  rw [hdoc] at hresult
  rcases hydrate_eq_ok.mp hresult with ⟨hall, heq⟩
  rw [heq, mapStr_ofPlan, mapUrls_mapUrls, hwritten.keeps, Except.ok.injEq] at hvalid
  have hsame : planHash tools loaded.hashInput = planHash tools plan.hashInput := by
    rw [(planGates_eq_ok.mp hgates).2.1, ← hwritten.hash, ← hvalid]
    rfl
  have hspec : loaded.spec =
      plan.spec.mapUrls fun s => hydrated tools secrets (redactOne tools s) := by
    rw [← hvalid]
    rfl
  have hagrees := ((planHash_eq_iff hdistinct).mp hsame).1
  simp only [Plan.hashInput] at hagrees
  rw [hspec, mapUrls_agrees_iff] at hagrees
  have hidentity := hagrees w hw
  cases href : tools.isRedactedUrl (tools.redactedUrl w) with
  | true => rfl
  | false =>
      have hin : tools.redactedUrl w ∈ (plan.spec.mapUrls (redactOne tools)).urls := by
        rw [urls_mapUrls]
        exact List.mem_map.mpr ⟨w, hw, redactOne_query hquery⟩
      rw [urls_plan] at hall
      rcases hall _ (List.mem_append_left _ hin) with ⟨value, hvalue⟩
      have hstays := (hydrateOne_plain href hvalue).1
      rw [redactOne_query hquery, hydrated_ok hvalue, hstays] at hidentity
      have hcredential := hidentity.credential
      rw [credentialRequired_unrecognised href, credentialRequired, hquery] at hcredential
      cases hcredential

/-!
## Edited plans
-/

/-- With the recorded hash, an edited plan that passes runs the job of the written one
exactly when the job id and the spelling of each URL were left alone. -/
theorem sameJob_iff (hsame : planHash tools edited.hashInput = planHash tools plan.hashInput)
    (hdistinct : Distinct tools edited.hashInput plan.hashInput) :
    SameJob edited plan <-> edited.jobId = plan.jobId ∧
      List.Forall₂ SameSpelling edited.spec.urls plan.spec.urls := by
  have hinputs := (planHash_eq_iff hdistinct).mp hsame
  have hagrees : edited.spec.Agrees (SameIdentity tools) plan.spec := hinputs.1
  have hurls : List.Forall₂ SameButQuery edited.spec.urls plan.spec.urls <->
      List.Forall₂ SameSpelling edited.spec.urls plan.spec.urls := by
    have hone := @forall₂_map_iff SameSpelling _ id _ SameButQuery _ _
      ((agrees_iff_urls hagrees).mp hagrees) fun _ _ h => sameButQuery_iff h.canonical
    rwa [List.map_id, List.map_id] at hone
  rw [← hurls, ← agrees_iff_urls hagrees]
  constructor
  · rintro ⟨hid, hspec, _, _⟩
    exact ⟨hid, hspec⟩
  · rintro ⟨hid, hspec⟩
    exact ⟨hid, hspec, hinputs.2.1, hinputs.2.2⟩

theorem planGates_written (hwritten : Written tools model plan)
    (hagrees : edited.spec.Agrees (SameIdentity tools) plan.spec)
    (hpath : edited.sourceSpecPath = plan.sourceSpecPath)
    (hedited : planGates tools edited = .ok ()) :
    planGates tools plan = .ok () <-> Accepted plan := by
  rw [planGates_eq_ok] at hedited ⊢
  have hcode : edited.spec.code = plan.spec.code := by
    have hrest := congrArg JobSpec.code hagrees.rest
    exact hrest
  rw [hcode, hpath] at hedited
  constructor
  · rintro ⟨_, _, haccepted⟩
    exact haccepted
  · intro haccepted
    exact ⟨hedited.1, hwritten.hash.symm, haccepted⟩

/-- Of an edited plan file that passes the gates with the recorded hash, the written file
would have passed them too and run the same job, exactly when its references are recognised,
its own diagnostics let it through, and the edit left the job id and the spelling of the URLs
alone. -/
theorem edited_plan_iff (tools : UrlTools) (model : PlanModel) (plan edited : Plan)
    (files : Files) (hwritten : Written tools model plan) (hcollision : NoCollision tools plan)
    (hedited : gatedPlan tools model files = .ok edited)
    (hrecorded : edited.specHash = plan.specHash)
    (hdistinct : Distinct tools edited.hashInput plan.hashInput)
    (hloaded : forall loaded, loadPlanFile tools model (writePlanFile tools plan) = .ok loaded ->
      Distinct tools loaded.hashInput plan.hashInput) :
    (exists loaded, gatedPlan tools model (writePlanFile tools plan) = .ok loaded ∧
      SameJob edited loaded) <->
      Recognised tools plan.spec.urls ∧ Accepted plan ∧ edited.jobId = plan.jobId ∧
        List.Forall₂ SameSpelling edited.spec.urls plan.spec.urls := by
  have hgates := (gatedPlan_eq_ok.mp hedited).2
  have hsame : planHash tools edited.hashInput = planHash tools plan.hashInput := by
    rw [(planGates_eq_ok.mp hgates).2.1, hrecorded, hwritten.hash]
  rcases (planHash_eq_iff hdistinct).mp hsame with ⟨hagrees, hpath, _⟩
  have hplan := planGates_written hwritten hagrees hpath hgates
  constructor
  · rintro ⟨loaded, hgated, hjob⟩
    have hload := (gatedPlan_eq_ok.mp hgated).1
    have hrecognised := hwritten.recognised hgated (hloaded loaded hload)
    rw [hwritten.loaded hcollision hrecognised, Except.ok.injEq] at hload
    rw [← hload] at hgated hjob
    exact ⟨hrecognised, hplan.mp (gatedPlan_eq_ok.mp hgated).2,
      (sameJob_iff hsame hdistinct).mp hjob⟩
  · rintro ⟨hrecognised, haccepted, hjob⟩
    refine ⟨plan, gatedPlan_eq_ok.mpr ⟨hwritten.loaded hcollision hrecognised, ?_⟩, ?_⟩
    · exact hplan.mpr haccepted
    · exact (sameJob_iff hsame hdistinct).mpr hjob

def scriptSpec (prefer : List String) : JobSpec :=
  { name := "n", code := { entry := "main.py" }, accelerator := { prefer } }

/-- Its plan, with the hash that `tools` gives it. -/
def scriptPlan (tools : UrlTools) (prefer : List String) (diagnostics : List Diagnostic)
    (createdAt : String) : Plan :=
  let input : HashInput :=
    { spec := scriptSpec prefer
      sourceSpecPath := some "/w/job.yaml"
      sourceFiles := [⟨"main.py", 5,
        "9f56e761d79bfdb34304a012586cb04d16b435ef6130091a97702e559260a2f2"⟩] }
  { jobId := "j", specHash := planHash tools input, createdAt, spec := input.spec
    diagnostics, sourceSpecPath := input.sourceSpecPath, sourceFiles := input.sourceFiles }

def scriptTools (prefer : List String) (specDigest planDigest : String)
    (h : isDigest specDigest.toList = true ∧ isDigest planDigest.toList = true) : UrlTools :=
  let bare := asciiTools [] noDigests
  let specText := Json.dumps (specPayload bare (scriptSpec prefer))
  let withSpec := asciiTools [(specText, specDigest)] (by
    intro item hitem
    rw [List.mem_singleton.mp hitem]
    exact h.1)
  let planText := Json.dumps (planPayload withSpec (scriptPlan bare prefer [] "").hashInput)
  asciiTools [(specText, specDigest), (planText, planDigest)] (by
    intro item hitem
    rcases List.mem_pair.mp hitem with heq | heq
    · rw [heq]
      exact h.1
    · rw [heq]
      exact h.2)

/-- The records of two plans without URLs, told apart by `first`. -/
def twoPlans (first : Json -> Bool) (p q : Plan) : PlanModel where
  validate payload := .ok (if first payload then p else q)

section Script

variable {prefer : List String} {diagnostics diagnostics' : List Diagnostic}
variable {createdAt createdAt' : String}

def ReadBack (model : PlanModel) (plan : Plan) : Prop :=
  model.validate (ofPlan plan) = .ok plan

theorem written_script (h : ReadBack model (scriptPlan tools prefer diagnostics createdAt)) :
    Written tools model (scriptPlan tools prefer diagnostics createdAt) ∧
      NoCollision tools (scriptPlan tools prefer diagnostics createdAt) := by
  refine ⟨⟨rfl, fun f => h, ?_, ?_⟩, ?_⟩
  · intro w hw
    cases hw
  · intro w hw
    cases hw
  · intro w w' hw
    cases hw

theorem recognised_script :
    Recognised tools (scriptPlan tools prefer diagnostics createdAt).spec.urls := by
  intro w hw
  cases hw

theorem loaded_script (h : ReadBack model (scriptPlan tools prefer diagnostics createdAt)) :
    loadPlanFile tools model
        (writePlanFile tools (scriptPlan tools prefer diagnostics createdAt)) =
      .ok (scriptPlan tools prefer diagnostics createdAt) := by
  rcases written_script h with ⟨hwritten, hcollision⟩
  exact hwritten.loaded hcollision recognised_script

theorem gated_script (h : ReadBack model (scriptPlan tools prefer diagnostics createdAt))
    (haccepted : Accepted (scriptPlan tools prefer diagnostics createdAt)) :
    gatedPlan tools model
        (writePlanFile tools (scriptPlan tools prefer diagnostics createdAt)) =
      .ok (scriptPlan tools prefer diagnostics createdAt) :=
  gatedPlan_eq_ok.mpr ⟨loaded_script h, planGates_eq_ok.mpr ⟨nofun, rfl, haccepted⟩⟩

theorem distinct_script :
    Distinct tools (scriptPlan tools prefer diagnostics createdAt).hashInput
      (scriptPlan tools prefer diagnostics' createdAt').hashInput :=
  ⟨.of_eq rfl, .of_eq rfl⟩

end Script

theorem edited_plan_iff_time :
    let tools := scriptTools ["T4"]
      "fec6e719ae38bda2673ed9927be8c4fb024aea69bd23d6da41f247582a507bc2"
      "9f8d9e19a32a9af8f655529519406408d13645b80f4fea202bda47bed59019a1" (by decide)
    let plan := scriptPlan tools ["T4"] [] "2026-01-01T00:00:00+00:00"
    let edited := scriptPlan tools ["T4"] [] "2026-01-02T00:00:00+00:00"
    let model := twoPlans (fun payload => (payload.asObj?.map fun fields =>
      (Json.Fields.get fields "created_at").asStr?) = some (some plan.createdAt)) plan edited
    exists loaded, gatedPlan tools model (writePlanFile tools plan) = .ok loaded ∧
      SameJob edited loaded := by
  intro tools plan edited model
  have hplan : ReadBack model plan := rfl
  have hedited : ReadBack model edited := rfl
  rcases written_script hplan with ⟨hwritten, hcollision⟩
  have hgated := gated_script hedited ⟨rfl, nofun⟩
  refine (edited_plan_iff tools model plan edited _ hwritten hcollision hgated rfl
    distinct_script ?_).mpr ⟨recognised_script, ⟨rfl, nofun⟩, rfl, .nil⟩
  intro loaded hload
  rw [loaded_script hplan, Except.ok.injEq] at hload
  rw [← hload]
  exact distinct_script

def unknownAccelerator : Diagnostic where
  severity := .error
  code := "accelerator_unknown"
  message := "Unknown accelerator name(s): X9"
  retryClass := some .fixCode
  hint := some "Use only one of: A100, G4, H100, L4, T4, v5e1, v6e1."

/-- A plan file without the error that its plan was refused for. -/
theorem edited_plan_unrefused :
    exists tools model plan edited, Written tools model plan ∧ NoCollision tools plan ∧
      gatedPlan tools model (writePlanFile tools edited) = .ok edited ∧
      edited.specHash = plan.specHash ∧ Distinct tools edited.hashInput plan.hashInput ∧
      plan.hasErrors = true ∧
      forall loaded, gatedPlan tools model (writePlanFile tools plan) ≠ .ok loaded := by
  let tools := scriptTools ["X9"]
    "138569f0f69ef388db40560022426a0f2fe7432c53770763ab96983880b035ed"
    "d41efa8618ef0a6a2f71b20a696b8b720581d21313220366ed3415b4f181f812" (by decide)
  let plan := scriptPlan tools ["X9"] [unknownAccelerator] ""
  let edited := scriptPlan tools ["X9"] [] ""
  let model := twoPlans (fun payload => (payload.asObj?.map fun fields =>
    (Json.Fields.get fields "diagnostics").truthy) = some true) plan edited
  have hplan : ReadBack model plan := rfl
  have hedited : ReadBack model edited := rfl
  rcases written_script hplan with ⟨hwritten, hcollision⟩
  refine ⟨tools, model, plan, edited, hwritten, hcollision, gated_script hedited ⟨rfl, nofun⟩,
    rfl, distinct_script, rfl, ?_⟩
  intro loaded hgated
  rcases gatedPlan_eq_ok.mp hgated with ⟨hload, hgates⟩
  rw [loaded_script hplan, Except.ok.injEq] at hload
  rw [← hload] at hgates
  have herrors := (planGates_eq_ok.mp hgates).2.2.1
  cases herrors

end PlanGates
end Job
end MightyColab
