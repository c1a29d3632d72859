import MightyColab.Lib.Path
import MightyColab.Job.Models

/-!
# The paths of a spec

Data destinations and artifact paths: the checks that `job plan` makes of them on their
lexical form, what the runner on the VM opens, and the files in the job's directory that
belong to the supervisor.
-/

namespace MightyColab
namespace Job

open Lib

namespace SpecPaths

/-!
## The plan's checks
-/

def reservedFiles : List String :=
  ["launch.json", "result.json", "exception.json", "watchdog.json", "cancel.json",
    "install.log"]

def reservedDirectories : List String := ["mighty_runtime"]

def contentRoot : List String := ["content"]

def jobRoot (jobId : String) : List String :=
  Path.resolve [] (contentRoot ++ "jobs" :: Path.names jobId)

def resolvedDestination (raw : String) (root : List String) : List String :=
  if Path.isAbs raw then Lib.Path.target raw else Path.resolve [] (root ++ Path.names raw)

def inside (root path : List String) : Bool := root.isPrefixOf path

def reserved (path root : List String) : Bool :=
  let relative := path.drop root.length
  inside root path &&
    (relative.any (reservedDirectories.contains ·) ||
      relative.getLast?.any (reservedFiles.contains ·))

/-- A path of the spec, by its place. -/
inductive Field where
  | data (index : Nat)
  | artifact (index : Nat)
  deriving DecidableEq, Repr

def Field.text : Field -> String
  | .data index => s!"data[{index}].dest"
  | .artifact index => s!"artifacts[{index}].path"

def outsideDiagnostic (field : Field) : Diagnostic where
  severity := .error
  code := "destination_outside_job_dir"
  message := s!"{field.text} resolves outside /content"
  retryClass := some .fixCode
  hint := some (s!"Set {field.text} to a path below /content; it is the " ++
    "only writable scratch that survives on a Colab VM.")

def reservedDiagnostic (field : Field) : Diagnostic where
  severity := .error
  code := "reserved_path"
  message := s!"{field.text} resolves onto a supervisor-owned path"
  retryClass := some .fixCode
  hint := some "Choose a destination outside mighty_runtime and supervisor JSON files."

def collisionDiagnostic (field prior : Field) : Diagnostic where
  severity := .error
  code := match field, prior with
    | .data _, .artifact _ => "data_dest_collides_with_artifact"
    | .artifact _, .data _ => "data_dest_collides_with_artifact"
    | _, _ => "duplicate_destination"
  message := match field, prior with
    | .data _, .artifact _ => s!"{field.text} duplicates artifact destination {prior.text}"
    | .artifact _, .data _ => s!"{field.text} duplicates data destination {prior.text}"
    | _, _ => s!"{field.text} duplicates destination {prior.text}"
  retryClass := some .fixCode
  hint := some (match field, prior with
    | .data _, .artifact _ => "Use a data destination distinct from every artifact path."
    | .artifact _, .data _ => "Use an artifact path distinct from every data destination."
    | _, _ => "Give each data and artifact item a distinct destination path.")

def fields (spec : JobSpec) : List (Field × String) :=
  (spec.data.mapIdx fun index item => (Field.data index, item.dest)) ++
    spec.artifacts.mapIdx fun index item => (Field.artifact index, item.path)

/-- The loop of `_path_diagnostics`, with the destinations seen so far. -/
def checkPaths (root : List String) :
    List (Field × String) -> List (List String × Field) -> List Diagnostic
  | [], _ => []
  | (field, raw) :: rest, seen =>
      let destination := resolvedDestination raw root
      (if inside contentRoot destination then [] else [outsideDiagnostic field]) ++
        (if reserved destination root then [reservedDiagnostic field] else []) ++
        (match seen.lookup destination with
          | some prior =>
              collisionDiagnostic field prior :: checkPaths root rest seen
          | none => checkPaths root rest ((destination, field) :: seen))

def pathDiagnostics (spec : JobSpec) (jobId : String) : List Diagnostic :=
  checkPaths (jobRoot jobId) (fields spec) []

/-- What `build_plan` reports, with what its checks before and after this one do. -/
def planDiagnostics (earlier later : List Diagnostic) (spec : JobSpec) (jobId : String) :
    List Diagnostic :=
  earlier ++ pathDiagnostics spec jobId ++ later

/-- `build_plan` accepts the spec. -/
def Accepted (diagnostics : List Diagnostic) : Prop :=
  forall d, d ∈ diagnostics -> d.severity ≠ .error

instance (diagnostics : List Diagnostic) : Decidable (Accepted diagnostics) :=
  inferInstanceAs (Decidable (forall d, d ∈ diagnostics -> d.severity ≠ .error))

/-!
## On the VM
-/

def remoteDir (jobId : String) : String := s!"/content/jobs/{jobId}"

def resolveJobPath (jobDir path : String) : String :=
  if Path.isAbs path then path else Path.join jobDir path

def vmPath (jobId raw : String) : List String :=
  Lib.Path.target (resolveJobPath (remoteDir jobId) raw)

def vmRecordFiles : List String :=
  ["runner.log", "install.log", "result.json", "exception.json", "watchdog.json",
    "launch.json", "cancel.json", "offload.manifest.json", "stage.manifest.json"]

def ownedNames : List String :=
  vmRecordFiles ++ ["mighty_runtime", "launch.json", "cancel.json", "exception.json",
    "watchdog.json", "result.json"]

/-- The path lies in `/content`, and neither above nor below a path of the supervisor. -/
def Clear (jobId : String) (path : List String) : Prop :=
  contentRoot <+: path ∧ forall name, name ∈ ownedNames ->
    ¬path <+: jobRoot jobId ++ [name] ∧ ¬jobRoot jobId ++ [name] <+: path

instance (jobId : String) (path : List String) : Decidable (Clear jobId path) :=
  inferInstanceAs (Decidable (contentRoot <+: path ∧ forall name, name ∈ ownedNames ->
    ¬path <+: jobRoot jobId ++ [name] ∧ ¬jobRoot jobId ++ [name] <+: path))

/-- The records that `_RESERVED_FILES` leaves out. -/
def unlisted : List String := ["runner.log", "offload.manifest.json", "stage.manifest.json"]

/-- Neither the job's directory nor one above it, nor a record that is not listed, nor
anything below a record that is. -/
def Free (root path : List String) : Prop :=
  ¬path <+: root ∧ forall name rest, path = root ++ name :: rest ->
    name ∉ unlisted ∧ (rest ≠ [] -> name ∉ reservedFiles)

/-!
## One path
-/

variable {jobId raw : String} {root path : List String}

theorem jobRoot_segment (h : Path.Segment jobId) :
    jobRoot jobId = ["content", "jobs", jobId] := by
  have hup : ".." ∉ contentRoot ++ "jobs" :: [jobId] := by
    simp [contentRoot, Ne.symm h.2.2.1]
  rw [jobRoot, Path.names_segment h, Path.resolve_down hup]
  rfl

theorem names_remoteDir (h : Path.Segment jobId) :
    Path.names (remoteDir jobId) = ["content", "jobs", jobId] := by
  have hdir : remoteDir jobId = "/content/jobs" ++ "/" ++ jobId := rfl
  have hjobs : Path.names "/content/jobs" = ["content", "jobs"] := by decide
  rw [hdir, Path.names_slash, Path.names_segment h, hjobs]
  rfl

theorem vmPath_resolved (h : Path.Segment jobId) (raw : String) :
    vmPath jobId raw = resolvedDestination raw (jobRoot jobId) := by
  unfold vmPath resolveJobPath resolvedDestination
  cases habs : Path.isAbs raw with
  | true => simp
  | false =>
      simp only [Bool.false_eq_true, if_false]
      rw [Lib.Path.target, Path.names_join habs, names_remoteDir h, jobRoot_segment h]

/-- A path that passes the plan's checks. -/
def Passes (root path : List String) : Prop :=
  inside contentRoot path = true ∧ reserved path root = false

theorem reserved_below {name : String} {rest : List String} :
    reserved (root ++ name :: rest) root =
      ((name :: rest).any (reservedDirectories.contains ·) ||
        (name :: rest).getLast?.any (reservedFiles.contains ·)) := by
  have hinside : inside root (root ++ name :: rest) = true :=
    List.isPrefixOf_iff_prefix.mpr (List.prefix_append _ _)
  simp only [reserved, hinside, List.drop_left, Bool.true_and]

theorem mem_ownedNames (name : String) :
    name ∈ ownedNames <-> name ∈ unlisted ∨ name ∈ reservedFiles ∨ name = "mighty_runtime" := by
  simp only [ownedNames, vmRecordFiles, unlisted, reservedFiles, List.mem_append,
    List.mem_cons, List.not_mem_nil, or_false]
  tauto

theorem passes_below {name : String} {rest : List String}
    (h : Passes root (root ++ name :: rest)) :
    name ≠ "mighty_runtime" ∧ (rest = [] -> name ∉ reservedFiles) := by
  have hreserved := h.right
  rw [reserved_below, Bool.or_eq_false_iff] at hreserved
  rcases hreserved with ⟨hdirectories, hfiles⟩
  constructor
  · intro hname
    rw [hname] at hdirectories
    simp [reservedDirectories] at hdirectories
  · intro hrest hname
    rw [hrest] at hfiles
    simp [hname] at hfiles

/-- A path that passes the checks is clear of the supervisor's exactly when it is free. -/
theorem clear_iff (h : Passes (jobRoot jobId) path) :
    Clear jobId path <-> Free (jobRoot jobId) path := by
  have hcontent : contentRoot <+: path := List.isPrefixOf_iff_prefix.mp h.left
  constructor
  · intro hclear
    constructor
    · intro habove
      have hmem : "runner.log" ∈ ownedNames := by decide
      exact (hclear.right _ hmem).left (habove.trans (List.prefix_append _ _))
    · intro name rest heq
      have hinitial : jobRoot jobId ++ [name] <+: path := by
        rw [heq]
        exact ⟨rest, by simp⟩
      constructor
      · intro hunlisted
        exact (hclear.right name ((mem_ownedNames name).mpr (Or.inl hunlisted))).right hinitial
      · intro _ hlisted
        have howned := (mem_ownedNames name).mpr (Or.inr (Or.inl hlisted))
        exact (hclear.right name howned).right hinitial
  · intro hfree
    refine ⟨hcontent, fun name hname => ?_⟩
    have hbelow : ¬jobRoot jobId ++ [name] <+: path := by
      rintro ⟨rest, hrest⟩
      have heq : path = jobRoot jobId ++ name :: rest := by simpa using hrest.symm
      rcases hfree.right name rest heq with ⟨hunlisted, hlisted⟩
      rw [heq] at h
      rcases passes_below h with ⟨hruntime, hlast⟩
      rcases (mem_ownedNames name).mp hname with hmem | hmem | hmem
      · exact hunlisted hmem
      · by_cases hnil : rest = []
        · exact hlast hnil hmem
        · exact hlisted hnil hmem
      · exact hruntime hmem
    constructor
    · intro habove
      rcases List.prefix_concat_iff.mp habove with heq | habove
      · exact hbelow (heq ▸ List.prefix_rfl)
      · exact hfree.left habove
    · exact hbelow

/-!
## The whole spec
-/

theorem checkPaths_passes {root : List String} {items : List (Field × String)} :
    forall {seen : List (List String × Field)}, Accepted (checkPaths root items seen) ->
      forall item, item ∈ items -> Passes root (resolvedDestination item.2 root) := by
  induction items with
  | nil => intro seen _ item hitem; cases hitem
  | cons first rest ih =>
      rcases first with ⟨field, raw⟩
      intro seen haccepted item hitem
      rw [checkPaths] at haccepted
      have houtside : inside contentRoot (resolvedDestination raw root) = true := by
        by_contra hnot
        exact haccepted (outsideDiagnostic field) (by simp [hnot]) rfl
      have hreserved : reserved (resolvedDestination raw root) root = false := by
        by_contra hnot
        exact haccepted (reservedDiagnostic field) (by simp [hnot]) rfl
      rcases List.mem_cons.mp hitem with heq | hrest
      · rw [heq]
        exact ⟨houtside, hreserved⟩
      · cases hseen : seen.lookup (resolvedDestination raw root) with
        | some prior =>
            have hnext : Accepted (checkPaths root rest seen) :=
              fun d hd => haccepted d (by simp [hseen, hd])
            exact ih hnext item hrest
        | none =>
            have hnext : Accepted
                (checkPaths root rest ((resolvedDestination raw root, field) :: seen)) :=
              fun d hd => haccepted d (by simp [hseen, hd])
            exact ih hnext item hrest

/-- A spec that is accepted keeps clear of the supervisor's files exactly when all its
paths are free. -/
theorem accepted_clear_iff (earlier later : List Diagnostic) (spec : JobSpec)
    (jobId : String) (hid : Path.Segment jobId)
    (haccepted : Accepted (planDiagnostics earlier later spec jobId)) :
    (forall item, item ∈ fields spec -> Clear jobId (vmPath jobId item.2)) <->
      forall item, item ∈ fields spec ->
        Free (jobRoot jobId) (resolvedDestination item.2 (jobRoot jobId)) := by
  have hpaths : Accepted (checkPaths (jobRoot jobId) (fields spec) []) :=
    fun d hd => haccepted d (by simp [planDiagnostics, pathDiagnostics, hd])
  have hpasses := checkPaths_passes hpaths
  constructor
  · intro hclear item hitem
    have hitemClear := hclear item hitem
    rw [vmPath_resolved hid] at hitemClear
    exact (clear_iff (hpasses item hitem)).mp hitemClear
  · intro hfree item hitem
    rw [vmPath_resolved hid]
    exact (clear_iff (hpasses item hitem)).mpr (hfree item hitem)

theorem accepted_clear_iff_input :
    Clear "j" (vmPath "j" "data/x.npy") := by
  let spec : JobSpec :=
    { name := "n", code := { entry := "main.py" }
      data := [{ url := "https://h/x.npy", dest := "data/x.npy" }] }
  refine (accepted_clear_iff [] [] spec "j" (by decide) (by decide)).mpr ?_
    (.data 0, "data/x.npy") (by decide)
  intro item hitem
  have heq : item = (.data 0, "data/x.npy") := by simpa [spec, fields] using hitem
  rw [heq]
  refine ⟨by decide, fun name rest hpath => ?_⟩
  have hdestination : resolvedDestination "data/x.npy" (jobRoot "j") =
      jobRoot "j" ++ "data" :: ["x.npy"] := by decide
  rw [hdestination] at hpath
  have hname : "data" :: ["x.npy"] = name :: rest := List.append_cancel_left hpath
  cases hname
  exact ⟨by decide, fun _ => by decide⟩

/-- A data destination that is the job's log: accepted, and the runner's own record. -/
theorem accepted_not_clear :
    exists spec, Accepted (planDiagnostics [] [] spec "j") ∧
      exists item, item ∈ fields spec ∧ ¬Clear "j" (vmPath "j" item.2) :=
  ⟨{ name := "n", code := { entry := "main.py" }
     data := [{ url := "https://h/x", dest := "runner.log" }] },
    by decide, (.data 0, "runner.log"), by decide, by decide⟩

end SpecPaths
end Job
end MightyColab
