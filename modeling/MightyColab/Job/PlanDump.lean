import Mathlib.Data.List.Forall2
import Mathlib.Data.Option.Basic
import MightyColab.Lib.JsonTree
import MightyColab.Lib.Text
import MightyColab.Job.Models

/-!
# A plan as a document

`model_dump(mode="json")` of a spec and of a plan, and which of its strings are URLs.
-/

namespace MightyColab
namespace Job

open Lib

/-!
## Values
-/

def RetryClass.value : RetryClass -> String
  | .fixCode => "fix_code"
  | .fixHuman => "fix_human"
  | .retrySame => "retry_same"
  | .retryDifferent => "retry_different"
  | .refreshUrls => "refresh_urls"
  | .doNotRetry => "do_not_retry"

def CodeKind.value : CodeKind -> String
  | .file => "file"
  | .bundle => "bundle"

def RetryMode.value : RetryMode -> String
  | .recreate => "recreate"
  | .resume => "resume"

def OnOffloadFail.value : OnOffloadFail -> String
  | .leaveUp => "leave_up"
  | .destroy => "destroy"

def OnRunFail.value : OnRunFail -> String
  | .offloadAnyway => "offload_anyway"
  | .skip => "skip"

def Severity.value : Severity -> String
  | .error => "error"
  | .warn => "warn"
  | .info => "info"

namespace PlanDump

def strings (texts : List String) : Json := .arr (texts.map Json.str)

/-!
## The documents

`url` writes a URL: `.str` in what `model_dump` returns.
-/

variable (url : String -> Json)

def ofAccelerator (a : Accelerator) : Json :=
  .obj [("prefer", strings a.prefer), ("accept_cpu", .bool a.acceptCpu)]

def ofCode (c : CodeSpec) : Json :=
  .obj [("kind", .str c.kind.value), ("root", Json.optStr c.root), ("entry", .str c.entry),
    ("args", strings c.args)]

def ofData (item : DataItem) : Json :=
  .obj [("url", url item.url), ("dest", .str item.dest), ("sha256", Json.optStr item.sha256),
    ("size_bytes", Json.optInt item.sizeBytes)]

def ofArtifact (item : ArtifactItem) : Json :=
  .obj [("path", .str item.path), ("url", url item.url), ("required", .bool item.required),
    ("size_bytes", Json.optInt item.sizeBytes)]

def ofChannel (channel : Option ControlChannel) : Json :=
  match channel with
  | none => .null
  | some c => .obj [("put_url", url c.putUrl), ("get_url", url c.getUrl)]

def ofControl (c : Control) : Json :=
  .obj [("result", ofChannel url c.result), ("log", ofChannel url c.log)]

def ofBudgets (b : Budgets) : Json :=
  .obj [("wall_clock", .int b.wallClock),
    ("artifact_sync_interval_seconds", Json.optInt b.artifactSyncIntervalSeconds)]

def ofRetry (r : Retry) : Json :=
  .obj [("when", strings (r.when.map RetryClass.value)), ("max_attempts", .int r.maxAttempts),
    ("budget_seconds", .int r.budgetSeconds), ("mode", .str r.mode.value)]

def ofSpec (spec : JobSpec) : Json :=
  .obj [("name", .str spec.name), ("code", ofCode spec.code),
    ("accelerator", ofAccelerator spec.accelerator), ("deps", strings spec.deps),
    ("data", .arr (spec.data.map (ofData url))),
    ("artifacts", .arr (spec.artifacts.map (ofArtifact url))),
    ("control", ofControl url spec.control), ("budgets", ofBudgets spec.budgets),
    ("retry", ofRetry spec.retry), ("ignore_warnings", .bool spec.ignoreWarnings),
    ("on_offload_fail", .str spec.onOffloadFail.value),
    ("on_run_fail", .str spec.onRunFail.value)]

def ofDiagnostic (d : Diagnostic) : Json :=
  .obj [("severity", .str d.severity.value), ("code", .str d.code), ("message", .str d.message),
    ("retry_class", Json.optStr (d.retryClass.map RetryClass.value)), ("hint", Json.optStr d.hint)]

def ofSourceFile (f : SourceFileLock) : Json :=
  .obj [("path", .str f.path), ("size_bytes", .int f.sizeBytes), ("sha256", .str f.sha256)]

def urlField (key : Option String) : Bool :=
  key.any fun key => key = "url" || Text.endsWith key "_url"

def onUrl (f : String -> String) (key : Option String) (s : String) : String :=
  if urlField key then f s else s

/-- The expiry texts are keyed by the place of their URL: some of these keys end like those
of URLs. -/
def ofExpiry (expiry : List (String × Option String)) : Json :=
  .obj (expiry.map fun (key, text) => (key, Json.optStr text))

def ofPlan (plan : Plan) : Json :=
  .obj [("schema_version", .str plan.schemaVersion), ("job_id", .str plan.jobId),
    ("spec_hash", .str plan.specHash), ("created_at", .str plan.createdAt),
    ("spec", ofSpec Json.str plan.spec),
    ("diagnostics", .arr (plan.diagnostics.map ofDiagnostic)),
    ("url_expiry", ofExpiry plan.urlExpiry),
    ("probed_size_bytes", .obj (plan.probedSizeBytes.map fun (key, n) => (key, .int n))),
    ("source_spec_path", Json.optStr plan.sourceSpecPath),
    ("source_files", .arr (plan.sourceFiles.map ofSourceFile))]

end PlanDump

/-!
## The URLs of a spec and of a plan
-/

open PlanDump

def DataItem.mapUrls (f : String -> String) (item : DataItem) : DataItem :=
  { item with url := f item.url }

def ArtifactItem.mapUrls (f : String -> String) (item : ArtifactItem) : ArtifactItem :=
  { item with url := f item.url }

def ControlChannel.mapUrls (f : String -> String) (c : ControlChannel) : ControlChannel :=
  { putUrl := f c.putUrl, getUrl := f c.getUrl }

def Control.mapUrls (f : String -> String) (c : Control) : Control :=
  { result := c.result.map (ControlChannel.mapUrls f), log := c.log.map (ControlChannel.mapUrls f) }

def JobSpec.mapUrls (f : String -> String) (spec : JobSpec) : JobSpec :=
  { spec with
    data := spec.data.map (DataItem.mapUrls f)
    artifacts := spec.artifacts.map (ArtifactItem.mapUrls f)
    control := spec.control.mapUrls f }

def ControlChannel.urls (c : ControlChannel) : List String := [c.putUrl, c.getUrl]

def Control.urls (c : Control) : List String :=
  (c.result.map ControlChannel.urls).getD [] ++ (c.log.map ControlChannel.urls).getD []

def JobSpec.urls (spec : JobSpec) : List String :=
  spec.data.map DataItem.url ++ (spec.artifacts.map ArtifactItem.url ++ spec.control.urls)

def Plan.expiryTexts (plan : Plan) : List String :=
  plan.urlExpiry.filterMap fun (key, text) => if urlField (some key) then text else none

/-- What stands under the key of a URL in the document of a plan. -/
def Plan.urlTexts (plan : Plan) : List String := plan.spec.urls ++ plan.expiryTexts

def Plan.mapUrls (f : String -> String) (plan : Plan) : Plan :=
  { plan with
    spec := plan.spec.mapUrls f
    urlExpiry := plan.urlExpiry.map fun (key, text) => (key, text.map (onUrl f (some key))) }

namespace PlanDump

/-!
## Changed URLs
-/

/-- The document with `url` of each string under the key of a URL. -/
def writeUrls (url : String -> Json) (key : Option String) (s : String) : Json :=
  if urlField key then url s else .str s

variable {url : String -> Json} {f : String -> String} {key : String}

theorem mapLeaves_str (hkey : urlField (some key) = false) (s : String) :
    Json.mapLeaves (writeUrls url) (some key) (.str s) = .str s := by
  simp [Json.mapLeaves, writeUrls, hkey]

theorem mapLeaves_optStr (hkey : urlField (some key) = false) (text : Option String) :
    Json.mapLeaves (writeUrls url) (some key) (Json.optStr text) = Json.optStr text := by
  cases text with
  | none => rfl
  | some s => exact mapLeaves_str hkey s

theorem mapLeaves_optInt (number : Option Int) :
    Json.mapLeaves (writeUrls url) (some key) (Json.optInt number) = Json.optInt number := by
  cases number <;> rfl

theorem mapItems_strings (hkey : urlField (some key) = false) (texts : List String) :
    Json.mapItems (writeUrls url) (some key) (texts.map Json.str) = texts.map Json.str := by
  induction texts with
  | nil => rfl
  | cons s rest ih => rw [List.map_cons, Json.mapItems, ih, mapLeaves_str hkey]

theorem mapLeaves_strings (hkey : urlField (some key) = false) (texts : List String) :
    Json.mapLeaves (writeUrls url) (some key) (strings texts) = strings texts := by
  rw [strings, Json.mapLeaves, mapItems_strings hkey]

theorem mapItems_map {Item : Type} {of of' : Item -> Json} (key : Option String)
    (h : forall item, Json.mapLeaves (writeUrls url) key (of item) = of' item)
    (items : List Item) :
    Json.mapItems (writeUrls url) key (items.map of) = items.map of' := by
  induction items with
  | nil => rfl
  | cons item rest ih => rw [List.map_cons, Json.mapItems, ih, h, List.map_cons]

theorem mapFields_cons {value value' : Json} {fields fields' : List (String × Json)}
    (hvalue : Json.mapLeaves (writeUrls url) (some key) value = value')
    (hrest : Json.mapFields (writeUrls url) fields = fields') :
    Json.mapFields (writeUrls url) ((key, value) :: fields) = (key, value') :: fields' := by
  rw [Json.mapFields, hvalue, hrest]

theorem mapLeaves_obj {fields fields' : List (String × Json)} (key : Option String)
    (h : Json.mapFields (writeUrls url) fields = fields') :
    Json.mapLeaves (writeUrls url) key (.obj fields) = .obj fields' := by
  rw [Json.mapLeaves, h]

theorem mapLeaves_arr {Item : Type} {of of' : Item -> Json} (key : Option String)
    (h : forall item, Json.mapLeaves (writeUrls url) key (of item) = of' item)
    (items : List Item) :
    Json.mapLeaves (writeUrls url) key (.arr (items.map of)) = .arr (items.map of') := by
  rw [Json.mapLeaves, mapItems_map key h]

theorem mapLeaves_data (key : Option String) (item : DataItem) :
    Json.mapLeaves (writeUrls url) key (ofData Json.str item) = ofData url item := by
  apply mapLeaves_obj
  apply mapFields_cons rfl
  apply mapFields_cons (mapLeaves_str (by decide) _)
  apply mapFields_cons (mapLeaves_optStr (by decide) _)
  exact mapFields_cons (mapLeaves_optInt _) rfl

theorem mapLeaves_artifact (key : Option String) (item : ArtifactItem) :
    Json.mapLeaves (writeUrls url) key (ofArtifact Json.str item) = ofArtifact url item := by
  apply mapLeaves_obj
  apply mapFields_cons (mapLeaves_str (by decide) _)
  apply mapFields_cons rfl
  apply mapFields_cons rfl
  exact mapFields_cons (mapLeaves_optInt _) rfl

theorem mapLeaves_channel (key : Option String) (channel : Option ControlChannel) :
    Json.mapLeaves (writeUrls url) key (ofChannel Json.str channel) =
      ofChannel url channel := by
  cases channel with
  | none => rfl
  | some c =>
      apply mapLeaves_obj
      apply mapFields_cons rfl
      exact mapFields_cons rfl rfl

theorem mapLeaves_code (key : Option String) (c : CodeSpec) :
    Json.mapLeaves (writeUrls url) key (ofCode c) = ofCode c := by
  apply mapLeaves_obj
  apply mapFields_cons (mapLeaves_str (by decide) _)
  apply mapFields_cons (mapLeaves_optStr (by decide) _)
  apply mapFields_cons (mapLeaves_str (by decide) _)
  exact mapFields_cons (mapLeaves_strings (by decide) _) rfl

theorem mapLeaves_accelerator (key : Option String) (a : Accelerator) :
    Json.mapLeaves (writeUrls url) key (ofAccelerator a) = ofAccelerator a := by
  apply mapLeaves_obj
  apply mapFields_cons (mapLeaves_strings (by decide) _)
  exact mapFields_cons rfl rfl

theorem mapLeaves_control (key : Option String) (c : Control) :
    Json.mapLeaves (writeUrls url) key (ofControl Json.str c) = ofControl url c := by
  apply mapLeaves_obj
  apply mapFields_cons (mapLeaves_channel _ _)
  exact mapFields_cons (mapLeaves_channel _ _) rfl

theorem mapLeaves_budgets (key : Option String) (b : Budgets) :
    Json.mapLeaves (writeUrls url) key (ofBudgets b) = ofBudgets b := by
  apply mapLeaves_obj
  apply mapFields_cons rfl
  exact mapFields_cons (mapLeaves_optInt _) rfl

theorem mapLeaves_retry (key : Option String) (r : Retry) :
    Json.mapLeaves (writeUrls url) key (ofRetry r) = ofRetry r := by
  apply mapLeaves_obj
  apply mapFields_cons (mapLeaves_strings (by decide) _)
  apply mapFields_cons rfl
  apply mapFields_cons rfl
  exact mapFields_cons (mapLeaves_str (by decide) _) rfl

theorem mapLeaves_spec (key : Option String) (spec : JobSpec) :
    Json.mapLeaves (writeUrls url) key (ofSpec Json.str spec) = ofSpec url spec := by
  apply mapLeaves_obj
  apply mapFields_cons (mapLeaves_str (by decide) _)
  apply mapFields_cons (mapLeaves_code _ _)
  apply mapFields_cons (mapLeaves_accelerator _ _)
  apply mapFields_cons (mapLeaves_strings (by decide) _)
  apply mapFields_cons (mapLeaves_arr _ (mapLeaves_data _) _)
  apply mapFields_cons (mapLeaves_arr _ (mapLeaves_artifact _) _)
  apply mapFields_cons (mapLeaves_control _ _)
  apply mapFields_cons (mapLeaves_budgets _ _)
  apply mapFields_cons (mapLeaves_retry _ _)
  apply mapFields_cons rfl
  apply mapFields_cons (mapLeaves_str (by decide) _)
  exact mapFields_cons (mapLeaves_str (by decide) _) rfl

theorem ofSpec_mapUrls (spec : JobSpec) :
    ofSpec url (spec.mapUrls f) = ofSpec (fun s => url (f s)) spec := by
  have hchannel : forall channel : Option ControlChannel,
      ofChannel url (channel.map (ControlChannel.mapUrls f)) =
        ofChannel (fun s => url (f s)) channel := by
    intro channel
    cases channel <;> rfl
  have hcontrol : ofControl url (spec.control.mapUrls f) =
      ofControl (fun s => url (f s)) spec.control := by
    simp only [ofControl, Control.mapUrls, hchannel]
  simp only [ofSpec, JobSpec.mapUrls, hcontrol, List.map_map]
  rfl

/-!
## The document of a plan
-/

theorem mapLeaves_diagnostic (key : Option String) (d : Diagnostic) :
    Json.mapLeaves (writeUrls url) key (ofDiagnostic d) = ofDiagnostic d := by
  apply mapLeaves_obj
  apply mapFields_cons (mapLeaves_str (by decide) _)
  apply mapFields_cons (mapLeaves_str (by decide) _)
  apply mapFields_cons (mapLeaves_str (by decide) _)
  apply mapFields_cons (mapLeaves_optStr (by decide) _)
  exact mapFields_cons (mapLeaves_optStr (by decide) _) rfl

theorem mapLeaves_sourceFile (key : Option String) (file : SourceFileLock) :
    Json.mapLeaves (writeUrls url) key (ofSourceFile file) = ofSourceFile file := by
  apply mapLeaves_obj
  apply mapFields_cons (mapLeaves_str (by decide) _)
  apply mapFields_cons rfl
  exact mapFields_cons (mapLeaves_str (by decide) _) rfl

theorem mapFields_expiry (expiry : List (String × Option String)) :
    Json.mapFields (writeUrls fun s => .str (f s))
        (expiry.map fun (key, text) => (key, Json.optStr text)) =
      expiry.map fun (key, text) => (key, Json.optStr (text.map (onUrl f (some key)))) := by
  induction expiry with
  | nil => rfl
  | cons item rest ih =>
      rcases item with ⟨key, text⟩
      apply mapFields_cons ?_ ih
      cases text with
      | none => rfl
      | some s =>
          simp only [Json.optStr, Json.optional, Option.map_some, Option.getD_some,
            Json.mapLeaves, writeUrls, onUrl]
          split <;> rfl

theorem mapFields_sizes (sizes : List (String × Int)) :
    Json.mapFields (writeUrls url) (sizes.map fun (key, n) => (key, .int n)) =
      sizes.map fun (key, n) => (key, .int n) := by
  induction sizes with
  | nil => rfl
  | cons item rest ih => exact mapFields_cons rfl ih

theorem str_onUrl :
    (fun key s => Json.str (onUrl f key s)) = writeUrls fun s => .str (f s) := by
  funext key s
  simp only [onUrl, writeUrls]
  split <;> rfl

theorem mapStr_ofSpec (key : Option String) (spec : JobSpec) :
    Json.mapStr (onUrl f) key (ofSpec Json.str spec) = ofSpec Json.str (spec.mapUrls f) := by
  rw [Json.mapStr, str_onUrl, mapLeaves_spec, ofSpec_mapUrls]

/-- What stands under the keys of URLs in a plan changes with its URLs and expiry texts. -/
theorem mapStr_ofPlan (plan : Plan) :
    Json.mapStr (onUrl f) none (ofPlan plan) = ofPlan (plan.mapUrls f) := by
  have hspec : ofSpec (fun s => .str (f s)) plan.spec = ofSpec Json.str (plan.spec.mapUrls f) :=
    (ofSpec_mapUrls plan.spec).symm
  rw [Json.mapStr, str_onUrl]
  apply mapLeaves_obj
  apply mapFields_cons (mapLeaves_str (by decide) _)
  apply mapFields_cons (mapLeaves_str (by decide) _)
  apply mapFields_cons (mapLeaves_str (by decide) _)
  apply mapFields_cons (mapLeaves_str (by decide) _)
  apply mapFields_cons ((mapLeaves_spec _ _).trans hspec)
  apply mapFields_cons (mapLeaves_arr _ (mapLeaves_diagnostic _) _)
  apply mapFields_cons
  · rw [ofExpiry, mapLeaves_obj _ (mapFields_expiry _)]
    exact congrArg Json.obj (by rw [Plan.mapUrls, List.map_map]; rfl)
  apply mapFields_cons (mapLeaves_obj _ (mapFields_sizes _))
  apply mapFields_cons (mapLeaves_optStr (by decide) _)
  exact mapFields_cons (mapLeaves_arr _ (mapLeaves_sourceFile _) _) rfl

/-!
## The strings under the keys of URLs
-/

def urlLeaf (leaf : Option String × String) : Option String :=
  if urlField leaf.1 then some leaf.2 else none

def urlStrings (key : Option String) (j : Json) : List String :=
  (Json.leaves key j).filterMap urlLeaf

def fieldUrls (fields : List (String × Json)) : List String :=
  (Json.leavesFields fields).filterMap urlLeaf

theorem mem_urlStrings {key : Option String} {j : Json} {s : String} :
    s ∈ urlStrings key j <-> exists k, (k, s) ∈ Json.leaves key j ∧ urlField k = true := by
  simp only [urlStrings, List.mem_filterMap, urlLeaf, Option.ite_none_right_eq_some,
    Option.some.injEq, Prod.exists]
  constructor
  · rintro ⟨k, s', hmem, hkey, rfl⟩
    exact ⟨k, hmem, hkey⟩
  · rintro ⟨k, hmem, hkey⟩
    exact ⟨k, s, hmem, hkey, rfl⟩

theorem urls_str (hkey : urlField (some key) = false) (s : String) :
    urlStrings (some key) (.str s) = [] := by
  simp [urlStrings, Json.leaves, urlLeaf, hkey]

theorem urls_optStr (hkey : urlField (some key) = false) (text : Option String) :
    urlStrings (some key) (Json.optStr text) = [] := by
  cases text with
  | none => rfl
  | some s => exact urls_str hkey s

theorem urls_optInt (number : Option Int) : urlStrings (some key) (Json.optInt number) = [] := by
  cases number <;> rfl

theorem urls_arr {Item : Type} {of : Item -> Json} {found : Item -> List String}
    (key : Option String) (h : forall item, urlStrings key (of item) = found item)
    (items : List Item) : urlStrings key (.arr (items.map of)) = items.flatMap found := by
  have hitems : (Json.leavesItems key (items.map of)).filterMap urlLeaf =
      items.flatMap found := by
    induction items with
    | nil => rfl
    | cons item rest ih =>
        rw [List.map_cons, Json.leavesItems, List.filterMap_append, ih, List.flatMap_cons,
          ← h item, urlStrings]
  rw [urlStrings, Json.leaves, hitems]

theorem urls_strings (hkey : urlField (some key) = false) (texts : List String) :
    urlStrings (some key) (strings texts) = [] := by
  rw [strings, urls_arr (some key) (urls_str hkey)]
  simp

theorem fieldUrls_cons {value : Json} {fields : List (String × Json)} {found more : List String}
    (hvalue : urlStrings (some key) value = found) (hrest : fieldUrls fields = more) :
    fieldUrls ((key, value) :: fields) = found ++ more := by
  rw [fieldUrls, Json.leavesFields, List.filterMap_append]
  exact congrArg₂ (· ++ ·) hvalue hrest

theorem fieldUrls_plain {value : Json} {fields : List (String × Json)} {more : List String}
    (hvalue : urlStrings (some key) value = []) (hrest : fieldUrls fields = more) :
    fieldUrls ((key, value) :: fields) = more :=
  fieldUrls_cons hvalue hrest

theorem urls_data (key : Option String) (item : DataItem) :
    urlStrings key (ofData Json.str item) = [item.url] := by
  apply fieldUrls_cons rfl
  apply fieldUrls_plain (urls_str (by decide) _)
  apply fieldUrls_plain (urls_optStr (by decide) _)
  exact fieldUrls_plain (urls_optInt _) rfl

theorem urls_artifact (key : Option String) (item : ArtifactItem) :
    urlStrings key (ofArtifact Json.str item) = [item.url] := by
  apply fieldUrls_plain (urls_str (by decide) _)
  apply fieldUrls_cons rfl
  apply fieldUrls_plain rfl
  exact fieldUrls_plain (urls_optInt _) rfl

theorem urls_channel (key : Option String) (channel : Option ControlChannel) :
    urlStrings key (ofChannel Json.str channel) =
      (channel.map ControlChannel.urls).getD [] := by
  cases channel with
  | none => rfl
  | some c => exact fieldUrls_cons rfl (fieldUrls_cons rfl rfl)

theorem urls_spec (key : Option String) (spec : JobSpec) :
    urlStrings key (ofSpec Json.str spec) = spec.urls := by
  have hcode : urlStrings (some "code") (ofCode spec.code) = [] := by
    apply fieldUrls_plain (urls_str (by decide) _)
    apply fieldUrls_plain (urls_optStr (by decide) _)
    apply fieldUrls_plain (urls_str (by decide) _)
    exact fieldUrls_plain (urls_strings (by decide) _) rfl
  have haccelerator : urlStrings (some "accelerator") (ofAccelerator spec.accelerator) = [] := by
    apply fieldUrls_plain (urls_strings (by decide) _)
    exact fieldUrls_plain rfl rfl
  have hcontrol : urlStrings (some "control") (ofControl Json.str spec.control) =
      spec.control.urls := by
    apply fieldUrls_cons (urls_channel _ _)
    exact (fieldUrls_cons (urls_channel _ _) rfl).trans (List.append_nil _)
  have hbudgets : urlStrings (some "budgets") (ofBudgets spec.budgets) = [] := by
    apply fieldUrls_plain rfl
    exact fieldUrls_plain (urls_optInt _) rfl
  have hretry : urlStrings (some "retry") (ofRetry spec.retry) = [] := by
    apply fieldUrls_plain (urls_strings (by decide) _)
    apply fieldUrls_plain rfl
    apply fieldUrls_plain rfl
    exact fieldUrls_plain (urls_str (by decide) _) rfl
  have hdata := urls_arr (some "data") (urls_data (some "data")) spec.data
  have hartifacts := urls_arr (some "artifacts") (urls_artifact (some "artifacts")) spec.artifacts
  rw [← List.map_eq_flatMap] at hdata hartifacts
  apply fieldUrls_plain (urls_str (by decide) _)
  apply fieldUrls_plain hcode
  apply fieldUrls_plain haccelerator
  apply fieldUrls_plain (urls_strings (by decide) _)
  apply fieldUrls_cons hdata
  apply fieldUrls_cons hartifacts
  refine (fieldUrls_cons hcontrol ?_).trans (List.append_nil _)
  apply fieldUrls_plain hbudgets
  apply fieldUrls_plain hretry
  apply fieldUrls_plain rfl
  apply fieldUrls_plain (urls_str (by decide) _)
  exact fieldUrls_plain (urls_str (by decide) _) rfl

theorem urls_expiry (expiry : List (String × Option String)) :
    fieldUrls (expiry.map fun (key, text) => (key, Json.optStr text)) =
      expiry.filterMap fun (key, text) => if urlField (some key) then text else none := by
  induction expiry with
  | nil => rfl
  | cons item rest ih =>
      rcases item with ⟨key, text⟩
      cases text with
      | none =>
          refine (fieldUrls_plain rfl ih).trans ?_
          simp
      | some s =>
          cases hkey : urlField (some key) with
          | false =>
              refine (fieldUrls_plain (urls_str hkey s) ih).trans ?_
              simp [hkey]
          | true =>
              have hfound : urlStrings (some key) (Json.optStr (some s)) = [s] := by
                simp [urlStrings, Json.optStr, Json.optional, Json.leaves, urlLeaf, hkey]
              refine (fieldUrls_cons hfound ih).trans ?_
              simp [hkey]

theorem urls_plan (plan : Plan) : urlStrings none (ofPlan plan) = plan.urlTexts := by
  have hdiagnostic : forall d, urlStrings (some "diagnostics") (ofDiagnostic d) = [] := by
    intro d
    apply fieldUrls_plain (urls_str (by decide) _)
    apply fieldUrls_plain (urls_str (by decide) _)
    apply fieldUrls_plain (urls_str (by decide) _)
    apply fieldUrls_plain (urls_optStr (by decide) _)
    exact fieldUrls_plain (urls_optStr (by decide) _) rfl
  have hfile : forall file, urlStrings (some "source_files") (ofSourceFile file) = [] := by
    intro file
    apply fieldUrls_plain (urls_str (by decide) _)
    apply fieldUrls_plain rfl
    exact fieldUrls_plain (urls_str (by decide) _) rfl
  have hexpiry : urlStrings (some "url_expiry") (ofExpiry plan.urlExpiry) =
      plan.expiryTexts := urls_expiry plan.urlExpiry
  have hsizes : urlStrings (some "probed_size_bytes")
      (.obj (plan.probedSizeBytes.map fun (key, n) => (key, .int n))) = [] := by
    show fieldUrls (plan.probedSizeBytes.map fun (key, n) => (key, .int n)) = []
    induction plan.probedSizeBytes with
    | nil => rfl
    | cons item rest ih => exact fieldUrls_plain rfl ih
  have hdiagnostics := (urls_arr (some "diagnostics") hdiagnostic plan.diagnostics).trans
    (List.flatMap_eq_nil_iff.mpr fun _ _ => rfl)
  have hfiles := (urls_arr (some "source_files") hfile plan.sourceFiles).trans
    (List.flatMap_eq_nil_iff.mpr fun _ _ => rfl)
  apply fieldUrls_plain (urls_str (by decide) _)
  apply fieldUrls_plain (urls_str (by decide) _)
  apply fieldUrls_plain (urls_str (by decide) _)
  apply fieldUrls_plain (urls_str (by decide) _)
  apply fieldUrls_cons (urls_spec _ _)
  apply fieldUrls_plain hdiagnostics
  refine (fieldUrls_cons hexpiry ?_).trans (List.append_nil _)
  apply fieldUrls_plain hsizes
  apply fieldUrls_plain (urls_optStr (by decide) _)
  exact fieldUrls_plain hfiles rfl

theorem mapUrls_eq_self {plan : Plan} :
    plan.mapUrls f = plan <-> forall u, u ∈ plan.urlTexts -> f u = u := by
  constructor
  · intro hsame u hu
    have hdoc := @mapStr_ofPlan f plan
    rw [hsame] at hdoc
    rw [← urls_plan] at hu
    rcases mem_urlStrings.mp hu with ⟨k, hmem, hkey⟩
    have hleaf := Json.mapStr_eq_self.mp hdoc (k, u) hmem
    rwa [onUrl, if_pos hkey] at hleaf
  · intro hsame
    have hdata : plan.spec.data.map (DataItem.mapUrls f) = plan.spec.data := by
      refine (List.map_congr_left ?_).trans (List.map_id _)
      intro item hitem
      have hurl := hsame item.url (by
        simp only [Plan.urlTexts, JobSpec.urls, List.mem_append, List.mem_map]
        exact Or.inl (Or.inl ⟨item, hitem, rfl⟩))
      rw [DataItem.mapUrls, hurl]
      rfl
    have hartifacts : plan.spec.artifacts.map (ArtifactItem.mapUrls f) =
        plan.spec.artifacts := by
      refine (List.map_congr_left ?_).trans (List.map_id _)
      intro item hitem
      have hurl := hsame item.url (by
        simp only [Plan.urlTexts, JobSpec.urls, List.mem_append, List.mem_map]
        exact Or.inl (Or.inr (Or.inl ⟨item, hitem, rfl⟩)))
      rw [ArtifactItem.mapUrls, hurl]
      rfl
    have hchannel : forall channel : Option ControlChannel,
        (forall u, u ∈ (channel.map ControlChannel.urls).getD [] -> f u = u) ->
          channel.map (ControlChannel.mapUrls f) = channel := by
      intro channel hchannel
      cases channel with
      | none => rfl
      | some c =>
          have hput := hchannel c.putUrl List.mem_cons_self
          have hget := hchannel c.getUrl (List.mem_cons_of_mem _ List.mem_cons_self)
          simp only [Option.map_some, ControlChannel.mapUrls, hput, hget]
    have hcontrol : plan.spec.control.mapUrls f = plan.spec.control := by
      have hin : forall u, u ∈ plan.spec.control.urls -> f u = u := by
        intro u hu
        apply hsame u
        simp only [Plan.urlTexts, JobSpec.urls, List.mem_append]
        exact Or.inl (Or.inr (Or.inr hu))
      have hresult := hchannel plan.spec.control.result fun u hu =>
        hin u (List.mem_append_left _ hu)
      have hlog := hchannel plan.spec.control.log fun u hu =>
        hin u (List.mem_append_right _ hu)
      rw [Control.mapUrls, hresult, hlog]
    have hexpiry : plan.urlExpiry.map
        (fun (key, text) => (key, text.map (onUrl f (some key)))) = plan.urlExpiry := by
      refine (List.map_congr_left ?_).trans (List.map_id _)
      rintro ⟨key, text⟩ hitem
      cases text with
      | none => rfl
      | some s =>
          simp only [Option.map_some, onUrl]
          split
          · next hkey =>
              have htext := hsame s (by
                simp only [Plan.urlTexts, List.mem_append, Plan.expiryTexts,
                  List.mem_filterMap]
                exact Or.inr ⟨(key, some s), hitem, by simp [hkey]⟩)
              rw [htext]
              rfl
          · rfl
    have hspec : plan.spec.mapUrls f = plan.spec := by
      rw [JobSpec.mapUrls, hdata, hartifacts, hcontrol]
    rw [Plan.mapUrls, hspec, hexpiry]

theorem mapUrls_mapUrls {g : String -> String} (plan : Plan) :
    (plan.mapUrls g).mapUrls f = plan.mapUrls fun s => f (g s) := by
  have hexpiry : (plan.urlExpiry.map fun (key, text) =>
        (key, text.map (onUrl g (some key)))).map
        (fun (key, text) => (key, text.map (onUrl f (some key)))) =
      plan.urlExpiry.map fun (key, text) =>
        (key, text.map (onUrl (fun s => f (g s)) (some key))) := by
    rw [List.map_map]
    refine List.map_congr_left ?_
    rintro ⟨key, text⟩ _
    cases text with
    | none => rfl
    | some s =>
        simp only [Function.comp, Option.map_some, onUrl]
        split <;> rfl
  simp only [Plan.mapUrls, hexpiry, JobSpec.mapUrls, Control.mapUrls, List.map_map,
    Option.map_map]
  rfl

end PlanDump

/-!
## Specs that agree up to their URLs
-/

/-- The same but for a URL, and `R` of the URLs. -/
structure DataItem.Agrees (R : String -> String -> Prop) (a b : DataItem) : Prop where
  url : R a.url b.url
  rest : { a with url := b.url } = b

structure ArtifactItem.Agrees (R : String -> String -> Prop) (a b : ArtifactItem) : Prop where
  url : R a.url b.url
  rest : { a with url := b.url } = b

structure ControlChannel.Agrees (R : String -> String -> Prop) (a b : ControlChannel) :
    Prop where
  putUrl : R a.putUrl b.putUrl
  getUrl : R a.getUrl b.getUrl

structure JobSpec.Agrees (R : String -> String -> Prop) (a b : JobSpec) : Prop where
  data : List.Forall₂ (DataItem.Agrees R) a.data b.data
  artifacts : List.Forall₂ (ArtifactItem.Agrees R) a.artifacts b.artifacts
  result : Option.Rel (ControlChannel.Agrees R) a.control.result b.control.result
  log : Option.Rel (ControlChannel.Agrees R) a.control.log b.control.log
  rest : { a with data := b.data, artifacts := b.artifacts, control := b.control } = b

theorem JobSpec.Agrees.mono {R S : String -> String -> Prop} {a b : JobSpec}
    (h : a.Agrees R b) (himp : forall u v, R u v -> S u v) : a.Agrees S b := by
  have hchannel : forall {c d : Option ControlChannel}, Option.Rel (ControlChannel.Agrees R) c d ->
      Option.Rel (ControlChannel.Agrees S) c d := by
    intro c d hrel
    cases hrel with
    | none => exact .none
    | some hrel => exact .some ⟨himp _ _ hrel.putUrl, himp _ _ hrel.getUrl⟩
  exact
    { data := h.data.imp fun _ _ item => ⟨himp _ _ item.url, item.rest⟩
      artifacts := h.artifacts.imp fun _ _ item => ⟨himp _ _ item.url, item.rest⟩
      result := hchannel h.result
      log := hchannel h.log
      rest := h.rest }

namespace PlanDump

variable {url : String -> Json}

theorem optStr_inj {a b : Option String} : Json.optStr a = Json.optStr b <-> a = b := by
  cases a <;> cases b <;> simp [Json.optStr, Json.optional]

theorem optInt_inj {a b : Option Int} : Json.optInt a = Json.optInt b <-> a = b := by
  cases a <;> cases b <;> simp [Json.optInt, Json.optional]

theorem map_eq_map_iff {Item Value : Type} {of : Item -> Value} {as bs : List Item} :
    as.map of = bs.map of <-> List.Forall₂ (fun a b => of a = of b) as bs := by
  rw [← List.forall₂_eq_eq_eq, List.forall₂_map_left_iff, List.forall₂_map_right_iff]

theorem strings_inj {a b : List String} : strings a = strings b <-> a = b := by
  have hinj : Function.Injective (List.map Json.str) :=
    List.map_injective_iff.mpr fun _ _ h => Json.str.inj h
  constructor
  · intro h
    exact hinj (Json.arr.inj h)
  · intro h
    rw [h]

theorem ofData_eq_iff {a b : DataItem} :
    ofData url a = ofData url b <-> a.Agrees (fun u v => url u = url v) b := by
  rcases a with ⟨u, dest, sha256, size⟩
  rcases b with ⟨v, dest', sha256', size'⟩
  simp only [ofData, Json.obj.injEq, List.cons.injEq, Prod.mk.injEq, true_and, Json.str.injEq,
    optStr_inj, optInt_inj, and_true]
  constructor
  · rintro ⟨hurl, rfl, rfl, rfl⟩
    exact ⟨hurl, rfl⟩
  · rintro ⟨hurl, hrest⟩
    cases hrest
    exact ⟨hurl, rfl, rfl, rfl⟩

theorem ofArtifact_eq_iff {a b : ArtifactItem} :
    ofArtifact url a = ofArtifact url b <-> a.Agrees (fun u v => url u = url v) b := by
  rcases a with ⟨path, u, required, size⟩
  rcases b with ⟨path', v, required', size'⟩
  simp only [ofArtifact, Json.obj.injEq, List.cons.injEq, Prod.mk.injEq, true_and,
    Json.str.injEq, Json.bool.injEq, optInt_inj, and_true]
  constructor
  · rintro ⟨rfl, hurl, rfl, rfl⟩
    exact ⟨hurl, rfl⟩
  · rintro ⟨hurl, hrest⟩
    cases hrest
    exact ⟨rfl, hurl, rfl, rfl⟩

theorem ofChannel_eq_iff {a b : Option ControlChannel} :
    ofChannel url a = ofChannel url b <->
      Option.Rel (ControlChannel.Agrees fun u v => url u = url v) a b := by
  cases a with
  | none =>
      cases b with
      | none => exact iff_of_true rfl .none
      | some c => exact iff_of_false (by simp [ofChannel]) (by intro h; cases h)
  | some c =>
      cases b with
      | none => exact iff_of_false (by simp [ofChannel]) (by intro h; cases h)
      | some d =>
          simp only [ofChannel, Json.obj.injEq, List.cons.injEq, Prod.mk.injEq, true_and,
            and_true]
          constructor
          · rintro ⟨hput, hget⟩
            exact .some ⟨hput, hget⟩
          · intro h
            cases h with
            | some h => exact ⟨h.putUrl, h.getUrl⟩

theorem ofCode_inj {a b : CodeSpec} : ofCode a = ofCode b <-> a = b := by
  rcases a with ⟨kind, root, entry, args⟩
  rcases b with ⟨kind', root', entry', args'⟩
  have hkind : kind.value = kind'.value <-> kind = kind' := by
    cases kind <;> cases kind' <;> decide
  simp only [ofCode, Json.obj.injEq, List.cons.injEq, Prod.mk.injEq, true_and, Json.str.injEq,
    optStr_inj, strings_inj, and_true, hkind, CodeSpec.mk.injEq]

theorem ofAccelerator_inj {a b : Accelerator} : ofAccelerator a = ofAccelerator b <-> a = b := by
  rcases a with ⟨prefer, acceptCpu⟩
  rcases b with ⟨prefer', acceptCpu'⟩
  simp only [ofAccelerator, Json.obj.injEq, List.cons.injEq, Prod.mk.injEq, true_and,
    Json.bool.injEq, strings_inj, and_true, Accelerator.mk.injEq]

theorem ofBudgets_inj {a b : Budgets} : ofBudgets a = ofBudgets b <-> a = b := by
  rcases a with ⟨wallClock, interval⟩
  rcases b with ⟨wallClock', interval'⟩
  simp only [ofBudgets, Json.obj.injEq, List.cons.injEq, Prod.mk.injEq, true_and,
    Json.int.injEq, optInt_inj, and_true, Budgets.mk.injEq]

theorem retryClass_inj {a b : RetryClass} : a.value = b.value <-> a = b := by
  cases a <;> cases b <;> decide

theorem ofRetry_inj {a b : Retry} : ofRetry a = ofRetry b <-> a = b := by
  rcases a with ⟨when, maxAttempts, budgetSeconds, mode⟩
  rcases b with ⟨when', maxAttempts', budgetSeconds', mode'⟩
  have hmode : mode.value = mode'.value <-> mode = mode' := by
    cases mode <;> cases mode' <;> decide
  have hwhen : when.map RetryClass.value = when'.map RetryClass.value <-> when = when' := by
    constructor
    · intro h
      exact List.map_injective_iff.mpr (fun _ _ h => retryClass_inj.mp h) h
    · intro h
      rw [h]
  simp only [ofRetry, Json.obj.injEq, List.cons.injEq, Prod.mk.injEq, true_and, Json.int.injEq,
    Json.str.injEq, strings_inj, and_true, hmode, hwhen, Retry.mk.injEq]

/-- Two specs have the same document exactly when they agree but for their URLs, and these
are written alike. -/
theorem ofSpec_eq_iff {a b : JobSpec} :
    ofSpec url a = ofSpec url b <-> a.Agrees (fun u v => url u = url v) b := by
  have hoffload : a.onOffloadFail.value = b.onOffloadFail.value <->
      a.onOffloadFail = b.onOffloadFail := by
    cases a.onOffloadFail <;> cases b.onOffloadFail <;> decide
  have hrun : a.onRunFail.value = b.onRunFail.value <-> a.onRunFail = b.onRunFail := by
    cases a.onRunFail <;> cases b.onRunFail <;> decide
  simp only [ofSpec, ofControl, Json.obj.injEq, List.cons.injEq, Prod.mk.injEq, true_and,
    Json.str.injEq, Json.bool.injEq, Json.arr.injEq, strings_inj, ofCode_inj,
    ofAccelerator_inj, ofBudgets_inj, ofRetry_inj, map_eq_map_iff, ofData_eq_iff,
    ofArtifact_eq_iff, ofChannel_eq_iff, hoffload, hrun, and_true]
  constructor
  · rintro ⟨hname, hcode, haccelerator, hdeps, hdata, hartifacts, ⟨hresult, hlog⟩, hbudgets,
      hretry, hwarnings, hoffload, hrun⟩
    refine ⟨hdata, hartifacts, hresult, hlog, ?_⟩
    rcases a with ⟨name, code, accelerator, deps, data, artifacts, control, budgets, retry,
      ignoreWarnings, onOffloadFail, onRunFail⟩
    simp only at hname hcode haccelerator hdeps hbudgets hretry hwarnings hoffload hrun
    simp only [hname, hcode, haccelerator, hdeps, hbudgets, hretry, hwarnings, hoffload, hrun]
  · rintro ⟨hdata, hartifacts, hresult, hlog, hrest⟩
    have hname := congrArg JobSpec.name hrest
    have hcode := congrArg JobSpec.code hrest
    have haccelerator := congrArg JobSpec.accelerator hrest
    have hdeps := congrArg JobSpec.deps hrest
    have hbudgets := congrArg JobSpec.budgets hrest
    have hretry := congrArg JobSpec.retry hrest
    have hwarnings := congrArg JobSpec.ignoreWarnings hrest
    have hoffload := congrArg JobSpec.onOffloadFail hrest
    have hrun := congrArg JobSpec.onRunFail hrest
    exact ⟨hname, hcode, haccelerator, hdeps, hdata, hartifacts, ⟨hresult, hlog⟩, hbudgets,
      hretry, hwarnings, hoffload, hrun⟩

/-!
## A spec and itself with other URLs
-/

variable {R : String -> String -> Prop} {f : String -> String}

theorem agrees_data (item : DataItem) :
    DataItem.Agrees R (item.mapUrls f) item <-> R (f item.url) item.url := by
  constructor
  · intro h
    exact h.url
  · intro h
    exact ⟨h, rfl⟩

theorem agrees_artifact (item : ArtifactItem) :
    ArtifactItem.Agrees R (item.mapUrls f) item <-> R (f item.url) item.url := by
  constructor
  · intro h
    exact h.url
  · intro h
    exact ⟨h, rfl⟩

theorem agrees_channel (channel : Option ControlChannel) :
    Option.Rel (ControlChannel.Agrees R) (channel.map (ControlChannel.mapUrls f)) channel <->
      forall u, u ∈ (channel.map ControlChannel.urls).getD [] -> R (f u) u := by
  cases channel with
  | none => exact iff_of_true .none (by simp)
  | some c =>
      simp only [Option.map_some, Option.getD_some, ControlChannel.urls, List.mem_cons,
        List.not_mem_nil, or_false, forall_eq_or_imp, forall_eq]
      constructor
      · intro h
        cases h with
        | some h => exact ⟨h.putUrl, h.getUrl⟩
      · rintro ⟨hput, hget⟩
        exact .some ⟨hput, hget⟩

/-- A spec agrees with itself with other URLs exactly when each URL is related to its own. -/
theorem mapUrls_agrees_iff (spec : JobSpec) :
    (spec.mapUrls f).Agrees R spec <-> forall u, u ∈ spec.urls -> R (f u) u := by
  have hdata : List.Forall₂ (DataItem.Agrees R) (spec.data.map (DataItem.mapUrls f))
      spec.data <-> forall u, u ∈ spec.data.map DataItem.url -> R (f u) u := by
    rw [List.forall₂_map_left_iff, List.forall₂_same]
    simp only [agrees_data, List.forall_mem_map]
  have hartifacts : List.Forall₂ (ArtifactItem.Agrees R)
      (spec.artifacts.map (ArtifactItem.mapUrls f)) spec.artifacts <->
        forall u, u ∈ spec.artifacts.map ArtifactItem.url -> R (f u) u := by
    rw [List.forall₂_map_left_iff, List.forall₂_same]
    simp only [agrees_artifact, List.forall_mem_map]
  have hresult := @agrees_channel R f spec.control.result
  have hlog := @agrees_channel R f spec.control.log
  simp only [JobSpec.urls, Control.urls, List.forall_mem_append]
  rw [← hdata, ← hartifacts, ← hresult, ← hlog]
  constructor
  · rintro ⟨hdata, hartifacts, hresult, hlog, _⟩
    exact ⟨hdata, hartifacts, hresult, hlog⟩
  · rintro ⟨hdata, hartifacts, hresult, hlog⟩
    exact ⟨hdata, hartifacts, hresult, hlog, rfl⟩

/-!
## The URLs of two specs
-/

variable {S : String -> String -> Prop}

theorem forall₂_map_iff {Item : Type} {of : Item -> String} {P Q : Item -> Item -> Prop}
    {as bs : List Item} (h : List.Forall₂ P as bs)
    (hiff : forall a b, P a b -> (Q a b <-> S (of a) (of b))) :
    List.Forall₂ Q as bs <-> List.Forall₂ S (as.map of) (bs.map of) := by
  induction h with
  | nil => exact iff_of_true .nil .nil
  | cons hhead _ ih =>
      rw [List.forall₂_cons, List.map_cons, List.map_cons, List.forall₂_cons,
        hiff _ _ hhead, ih]

theorem forall₂_append_iff {as as' bs bs' : List String} (h : as.length = bs.length) :
    List.Forall₂ S (as ++ as') (bs ++ bs') <->
      List.Forall₂ S as bs ∧ List.Forall₂ S as' bs' := by
  constructor
  · intro hall
    have htake := List.forall₂_take_append (as ++ as') bs bs' hall
    have hdrop := List.forall₂_drop_append (as ++ as') bs bs' hall
    rw [← h, List.take_left] at htake
    rw [← h, List.drop_left] at hdrop
    exact ⟨htake, hdrop⟩
  · rintro ⟨hfirst, hrest⟩
    exact List.rel_append hfirst hrest

theorem rel_channel_iff {c d : Option ControlChannel}
    (h : Option.Rel (ControlChannel.Agrees R) c d) :
    Option.Rel (ControlChannel.Agrees S) c d <->
      List.Forall₂ S ((c.map ControlChannel.urls).getD [])
        ((d.map ControlChannel.urls).getD []) := by
  cases h with
  | none => exact iff_of_true .none .nil
  | some h =>
      simp only [Option.map_some, Option.getD_some, ControlChannel.urls, List.forall₂_cons,
        List.Forall₂.nil, and_true]
      constructor
      · intro h
        cases h with
        | some h => exact ⟨h.putUrl, h.getUrl⟩
      · rintro ⟨hput, hget⟩
        exact .some ⟨hput, hget⟩

theorem length_channel {c d : Option ControlChannel}
    (h : Option.Rel (ControlChannel.Agrees R) c d) :
    ((c.map ControlChannel.urls).getD []).length =
      ((d.map ControlChannel.urls).getD []).length := by
  cases h <;> rfl

theorem agrees_iff_urls {a b : JobSpec} (h : a.Agrees R b) :
    a.Agrees S b <-> List.Forall₂ S a.urls b.urls := by
  have hdata := @forall₂_map_iff S _ DataItem.url _ (DataItem.Agrees S) _ _ h.data
    fun x y hxy => ⟨fun hx => hx.url, fun hx => ⟨hx, hxy.rest⟩⟩
  have hartifacts := @forall₂_map_iff S _ ArtifactItem.url _ (ArtifactItem.Agrees S) _ _
    h.artifacts
    fun x y hxy => ⟨fun hx => hx.url, fun hx => ⟨hx, hxy.rest⟩⟩
  have hresult := rel_channel_iff (S := S) h.result
  have hlog := rel_channel_iff (S := S) h.log
  have hlengths : (a.data.map DataItem.url).length = (b.data.map DataItem.url).length := by
    rw [List.length_map, List.length_map, h.data.length_eq]
  have hlengths' : (a.artifacts.map ArtifactItem.url).length =
      (b.artifacts.map ArtifactItem.url).length := by
    rw [List.length_map, List.length_map, h.artifacts.length_eq]
  rw [JobSpec.urls, JobSpec.urls, Control.urls, Control.urls, forall₂_append_iff hlengths,
    forall₂_append_iff hlengths', forall₂_append_iff (length_channel h.result), ← hdata,
    ← hartifacts, ← hresult, ← hlog]
  constructor
  · rintro ⟨hdata, hartifacts, hresult, hlog, _⟩
    exact ⟨hdata, hartifacts, hresult, hlog⟩
  · rintro ⟨hdata, hartifacts, hresult, hlog⟩
    exact ⟨hdata, hartifacts, hresult, hlog, h.rest⟩

end PlanDump
end Job
end MightyColab
