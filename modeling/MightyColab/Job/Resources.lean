import MightyColab.Lib.Path
import MightyColab.Lib.Text
import MightyColab.Lib.Json

/-!
# Job records as MCP resources

`on_read_resource` and the three readers behind it, from the URI that a client sends to the
file that is read. The disk is what it shows of each path, without symbolic links.
-/

namespace MightyColab
namespace Job

open Lib

namespace Resources

/-!
## The store
-/

inductive Node where
  | file (text : String)
  | directory (names : List String)

structure Store where
  /-- The names of the store's root. -/
  root : List String
  look : List String -> Option Node
  /-- A directory lists single names. -/
  segments : forall path names, look path = some (.directory names) ->
    forall name, name ∈ names -> Path.Segment name
  /-- The text that an envelope's text is read and written as, or what raises. -/
  envelope : String -> Except String String

def Store.isDir (s : Store) (path : List String) : Bool := s.look path matches some (.directory _)

def Store.isFile (s : Store) (path : List String) : Bool := s.look path matches some (.file _)

def Store.children (s : Store) (path : List String) : List String :=
  match s.look path with
  | some (.directory names) => names
  | _ => []

def Store.listJobs (s : Store) : List String :=
  (s.children s.root).filter fun name => s.isDir (s.root ++ [name])

/-- What `job_dir` leads to, if there are directories on the way. -/
def Store.jobDir (s : Store) (jobId : String) : Option (List String) :=
  Path.walk s.isDir (if Path.isAbs jobId then [] else s.root) (Path.names jobId)

def envelopeFile : String := "envelope.json"
def runnerLogFile : String := "runner.log"
def applyLockFile : String := "apply.lock"
def secretSidecarSuffix : String := ".mighty-colab-secrets.json"
def secretTempPrefix : String := ".mighty-colab-secret-tmp-"

/-- A name that `job_record_files` shows. -/
def recordName (name : String) : Bool :=
  !([envelopeFile, runnerLogFile, applyLockFile].contains name) &&
    !Text.startsWith name "." && !Text.startsWith name secretTempPrefix &&
    !Text.endsWith name secretSidecarSuffix

def Store.recordsIn (s : Store) (dir : List String) : List String :=
  (s.children dir).filter fun name => s.isFile (dir ++ [name]) && recordName name

def Store.jobRecordFiles (s : Store) (jobId : String) : List String :=
  match s.jobDir jobId with
  | some dir => s.recordsIn dir
  | none => []

/-!
## URIs
-/

def jobUriPrefix : String := "job://"
def jobLogsSuffix : String := "/logs"
def jobFilesInfix : String := "/files/"

def jobsListUris : List String := ["jobs://", "jobs://running", "jobs://done"]

/-- `uri[len(JOB_URI_PREFIX):]`. -/
def afterPrefix (uri : String) : List Char := uri.toList.drop jobUriPrefix.toList.length

def jobIdFromUri (uri : String) : Option String :=
  if Text.startsWith uri jobUriPrefix then Text.nonempty? (afterPrefix uri) else none

def jobIdFromLogsUri (uri : String) : Option String :=
  if Text.startsWith uri jobUriPrefix && Text.endsWith uri jobLogsSuffix then
    Text.nonempty? ((uri.toList.take (uri.toList.length - jobLogsSuffix.toList.length)).drop
      jobUriPrefix.toList.length)
  else none

def jobFileFromUri (uri : String) : Option (String × String) :=
  if Text.startsWith uri jobUriPrefix then
    match Text.cut jobFilesInfix.toList (afterPrefix uri) with
    | none => none
    | some (jobId, name) =>
        match Text.nonempty? jobId, Text.nonempty? name with
        | some jobId, some name => some (jobId, name)
        | _, _ => none
  else none

/-!
## The readers
-/

inductive Contents where
  /-- The rows of `jobs list`. -/
  | rows
  /-- A text, and the file that it is read from. -/
  | text (path : List String) (mimeType text : String)
  deriving DecidableEq, Repr

/-- `read_envelope`: the file and its text, if there is one. -/
def Store.readEnvelope (s : Store) (jobId : String) :
    Except String (Option (List String × String)) :=
  match s.jobDir jobId with
  | none => .ok none
  | some dir =>
      let path := dir ++ [envelopeFile]
      match s.look path with
      | none => .ok none
      | some (.directory _) => .error "IsADirectoryError"
      | some (.file text) => (s.envelope text).map fun text => some (path, text)

def noEnvelope (jobId : String) : String :=
  s!"no envelope for job {Json.reprStr jobId} -- planned but never applied, " ++
    "or the job_id doesn't exist"

def readJobResource (s : Store) (uri : String) : Except String Contents :=
  match jobIdFromUri uri with
  | none => .error s!"not a job:// resource: {uri}"
  | some jobId => do
      match ← s.readEnvelope jobId with
      | none => .error (noEnvelope jobId)
      | some (path, text) => return .text path "application/json" text

def readJobLogsResource (s : Store) (uri : String) : Except String Contents :=
  match jobIdFromLogsUri uri with
  | none => .error s!"not a job://<id>/logs resource: {uri}"
  | some jobId => do
      let env ← s.readEnvelope jobId
      match s.jobDir jobId with
      | none => .error (noEnvelope jobId)
      | some dir =>
          if env.isNone && (s.look dir).isNone then .error (noEnvelope jobId)
          else
            let path := dir ++ [runnerLogFile]
            match s.look path with
            | some (.directory _) => .error "IsADirectoryError"
            | some (.file text) => return .text path "text/plain" text
            | none => return .text path "text/plain" ""

/-- `_FILE_MIME_TYPES` by the name's suffix. -/
def fileMimeType (name : String) : String :=
  if Text.endsWith name ".json" then "application/json"
  else if Text.endsWith name ".jsonl" then "application/x-ndjson"
  else "text/plain"

def readJobFileResource (s : Store) (uri : String) : Except String Contents :=
  match jobFileFromUri uri with
  | none => .error s!"not a job://<id>/files/<name> resource: {uri}"
  | some (jobId, name) =>
      if (s.jobRecordFiles jobId).contains name then
        match s.jobDir jobId with
        | none => .error "FileNotFoundError"
        | some dir =>
            match s.look (dir ++ [name]) with
            | some (.file text) => .ok (.text (dir ++ [name]) (fileMimeType name) text)
            | _ => .error "FileNotFoundError"
      else .error s!"job {Json.reprStr jobId} has no record file {Json.reprStr name}"

def onReadResource (s : Store) (uri : String) : Except String Contents :=
  if jobsListUris.contains uri then .ok .rows
  else if (jobFileFromUri uri).isSome then readJobFileResource s uri
  else if Text.endsWith uri jobLogsSuffix then readJobLogsResource s uri
  else readJobResource s uri

def jobIdOf (uri : String) : Option String :=
  match jobFileFromUri uri with
  | some (jobId, _) => some jobId
  | none =>
      if Text.endsWith uri jobLogsSuffix then jobIdFromLogsUri uri else jobIdFromUri uri

/-!
## Inside the job records
-/

def Secret (name : String) : Prop :=
  Text.startsWith name secretTempPrefix = true ∨ Text.endsWith name secretSidecarSuffix = true

/-- The file lies directly in the directory of a listed job, is its envelope, its log or a
record file, and holds no signed URLs. -/
def Store.Advertised (s : Store) (path : List String) : Prop :=
  exists id name, id ∈ s.listJobs ∧ path = s.root ++ [id, name] ∧ ¬Secret name ∧
    (name = envelopeFile ∨ name = runnerLogFile ∨ name ∈ s.recordsIn (s.root ++ [id]))

/-- What is read stays inside the job records. -/
def Store.Stays (s : Store) : Except String Contents -> Prop
  | .ok (.text path _ _) => s.Advertised path
  | _ => True

/-- The job id leads to the directory of a listed job. -/
def Store.NamesJob (s : Store) (jobId : String) : Prop :=
  exists id, id ∈ s.listJobs ∧ s.jobDir jobId = some (s.root ++ [id])

variable {s : Store} {uri : String}

theorem not_secret_envelope : ¬Secret envelopeFile := by
  unfold Secret
  decide

theorem not_secret_log : ¬Secret runnerLogFile := by
  unfold Secret
  decide

theorem not_secret_record {name : String} {dir : List String} (h : name ∈ s.recordsIn dir) :
    ¬Secret name := by
  rcases List.mem_filter.mp h with ⟨_, hname⟩
  simp only [recordName, Bool.and_eq_true, Bool.not_eq_true'] at hname
  rintro (htemp | hsidecar)
  · rw [hname.2.1.2] at htemp
    cases htemp
  · rw [hname.2.2] at hsidecar
    cases hsidecar

def Store.GivenIn (s : Store) (jobId : String) (path : List String) : Prop :=
  exists dir name, s.jobDir jobId = some dir ∧ path = dir ++ [name] ∧
    (name = envelopeFile ∨ name = runnerLogFile ∨ name ∈ s.recordsIn dir)

theorem readJobResource_given {jobId : String} {path : List String} {mimeType text : String}
    (hid : jobIdFromUri uri = some jobId)
    (h : readJobResource s uri = .ok (.text path mimeType text)) : s.GivenIn jobId path := by
  simp only [readJobResource, hid] at h
  cases hdir : s.jobDir jobId with
  | none => simp [Store.readEnvelope, hdir, bind, Except.bind] at h
  | some dir =>
      simp only [Store.readEnvelope, hdir] at h
      cases hlook : s.look (dir ++ [envelopeFile]) with
      | none => simp [hlook, bind, Except.bind] at h
      | some node =>
          cases node with
          | directory names => simp [hlook, bind, Except.bind] at h
          | file raw =>
              cases henvelope : s.envelope raw with
              | error e => simp [hlook, henvelope, bind, Except.bind, Except.map] at h
              | ok dumped =>
                  simp only [hlook, henvelope, bind, Except.bind, Except.map, pure,
                    Except.pure] at h
                  cases h
                  exact ⟨dir, envelopeFile, hdir, rfl, Or.inl rfl⟩

theorem readJobLogsResource_given {jobId : String} {path : List String}
    {mimeType text : String} (hid : jobIdFromLogsUri uri = some jobId)
    (h : readJobLogsResource s uri = .ok (.text path mimeType text)) :
    s.GivenIn jobId path := by
  simp only [readJobLogsResource, hid] at h
  cases henvelope : s.readEnvelope jobId with
  | error e => simp [henvelope, bind, Except.bind] at h
  | ok env =>
      simp only [henvelope, bind, Except.bind] at h
      cases hdir : s.jobDir jobId with
      | none => simp [hdir] at h
      | some dir =>
          have hgiven : s.GivenIn jobId (dir ++ [runnerLogFile]) :=
            ⟨dir, runnerLogFile, hdir, rfl, Or.inr (Or.inl rfl)⟩
          simp only [hdir] at h
          split at h
          · cases h
          · split at h
            · cases h
            · cases h
              exact hgiven
            · cases h
              exact hgiven

theorem readJobFileResource_given {jobId name : String} {path : List String}
    {mimeType text : String} (hid : jobFileFromUri uri = some (jobId, name))
    (h : readJobFileResource s uri = .ok (.text path mimeType text)) :
    s.GivenIn jobId path := by
  simp only [readJobFileResource, hid] at h
  split at h
  · next hcontains =>
      cases hdir : s.jobDir jobId with
      | none => simp [hdir] at h
      | some dir =>
          have hrecord : name ∈ s.recordsIn dir := by
            simpa [Store.jobRecordFiles, hdir] using hcontains
          simp only [hdir] at h
          split at h
          · cases h
            exact ⟨dir, name, hdir, rfl, Or.inr (Or.inr hrecord)⟩
          · cases h
  · cases h

/-- A file that a reader gives lies in the directory that the URI's job id leads to. -/
theorem onReadResource_given {path : List String} {mimeType text : String}
    (h : onReadResource s uri = .ok (.text path mimeType text)) :
    exists jobId, jobIdOf uri = some jobId ∧ s.GivenIn jobId path := by
  unfold onReadResource at h
  split at h
  · cases h
  · cases hfile : jobFileFromUri uri with
    | some parts =>
        rcases parts with ⟨jobId, name⟩
        rw [hfile, Option.isSome_some, if_pos rfl] at h
        exact ⟨jobId, by simp [jobIdOf, hfile], readJobFileResource_given hfile h⟩
    | none =>
        simp only [hfile, Option.isSome_none, Bool.false_eq_true, if_false] at h
        simp only [jobIdOf, hfile]
        split at h
        · next hlogs =>
            rw [if_pos hlogs]
            cases hid : jobIdFromLogsUri uri with
            | none => simp [readJobLogsResource, hid] at h
            | some jobId => exact ⟨jobId, rfl, readJobLogsResource_given hid h⟩
        · next hlogs =>
            rw [if_neg hlogs]
            cases hid : jobIdFromUri uri with
            | none => simp [readJobResource, hid] at h
            | some jobId => exact ⟨jobId, rfl, readJobResource_given hid h⟩

theorem advertised_of_names {jobId : String} {path : List String} (h : s.GivenIn jobId path)
    (hnames : s.NamesJob jobId) : s.Advertised path := by
  rcases h with ⟨dir, name, hdir, hpath, hname⟩
  rcases hnames with ⟨id, hlisted, hid⟩
  rw [hdir] at hid
  cases hid
  refine ⟨id, name, hlisted, by simp [hpath], ?_, hname⟩
  rcases hname with henvelope | hlog | hrecord
  · rw [henvelope]
    exact not_secret_envelope
  · rw [hlog]
    exact not_secret_log
  · exact not_secret_record hrecord

theorem names_of_advertised {jobId : String} {path : List String} (h : s.GivenIn jobId path)
    (hadvertised : s.Advertised path) : s.NamesJob jobId := by
  rcases h with ⟨dir, name, hdir, hpath, _⟩
  rcases hadvertised with ⟨id, name', hlisted, hpath', _⟩
  have heq : dir ++ [name] = (s.root ++ [id]) ++ [name'] := by
    rw [← hpath, hpath']
    simp
  have hsame : dir = s.root ++ [id] := (List.append_inj' heq rfl).left
  exact ⟨id, hlisted, by rw [hdir, hsame]⟩

/-- What a client is given stays inside the job records exactly when it is given no file,
or the job id of its URI leads to the directory of a listed job. -/
theorem read_stays_iff (s : Store) (uri : String) :
    s.Stays (onReadResource s uri) <->
      forall path mimeType text, onReadResource s uri = .ok (.text path mimeType text) ->
        exists jobId, jobIdOf uri = some jobId ∧ s.NamesJob jobId := by
  constructor
  · intro hstays path mimeType text hread
    rcases onReadResource_given hread with ⟨jobId, hid, hgiven⟩
    rw [hread] at hstays
    exact ⟨jobId, hid, names_of_advertised hgiven hstays⟩
  · intro hnames
    cases hread : onReadResource s uri with
    | error e => trivial
    | ok contents =>
        cases contents with
        | rows => trivial
        | text path mimeType text =>
            rcases onReadResource_given hread with ⟨jobId, hid, hgiven⟩
            rcases hnames path mimeType text hread with ⟨jobId', hid', hjob⟩
            rw [hid] at hid'
            cases hid'
            exact advertised_of_names hgiven hjob

/-- `sessions.json` beside the store's root, and a store with one job. -/
def shared : Store where
  root := ["home", "colab-cli", "jobs"]
  look := fun path =>
    if path = ["home", "colab-cli", "jobs"] then some (.directory ["j"])
    else if path = ["home", "colab-cli", "jobs", "j"] then some (.directory ["plan.json"])
    else if path = ["home", "colab-cli"] then some (.directory ["jobs", "sessions.json"])
    else if path = ["home", "colab-cli", "sessions.json"] then some (.file "tokens")
    else none
  segments := by
    intro path names h name hname
    split at h
    · cases h
      rw [List.mem_singleton.mp hname]
      decide
    · split at h
      · cases h
        rw [List.mem_singleton.mp hname]
        decide
      · split at h
        · cases h
          rcases List.mem_cons.mp hname with heq | hname
          · rw [heq]
            decide
          · rw [List.mem_singleton.mp hname]
            decide
        · split at h <;> cases h
  envelope := .ok

/-- The job id `..` leads to the directory above the store. -/
theorem read_leaves_records : exists s uri, ¬Store.Stays s (onReadResource s uri) := by
  have hread : onReadResource shared "job://../files/sessions.json" =
      .ok (.text ["home", "colab-cli", "sessions.json"] "application/json" "tokens") := by
    decide
  refine ⟨shared, "job://../files/sessions.json", ?_⟩
  rw [hread]
  rintro ⟨id, name, _, hpath, _⟩
  simp [shared] at hpath

end Resources
end Job
end MightyColab
