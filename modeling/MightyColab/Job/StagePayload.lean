import Mathlib.Data.Finset.Basic
import MightyColab.Job.SourceTree
import MightyColab.Job.TransferChannel

/-!
# Staging the payload

`stage_payload`, from the CLI's own files to the credential file, and what is known of the
user's files that it has sent: with a source lock they are the locked ones, whatever happened
to the source tree in the meantime.
-/

namespace MightyColab
namespace Job

open Lib
open Upload (Bytes)
open SourceTree

namespace StagePayload

def remoteJoin (root child : String) : String :=
  String.ofList ((root.toList.reverse.dropWhile (· = '/')).reverse ++
    '/' :: child.toList.dropWhile (· = '/'))

/-- `remote_path.rsplit("/", 1)[0]`. -/
def parentOf (remote : String) : String :=
  if '/' ∈ remote.toList then
    String.ofList ((remote.toList.reverse.dropWhile (· ≠ '/')).tail.reverse)
  else remote

def contentsUploadCeiling : Nat := 250 * 1024 * 1024

variable (w : World)

def callClient : Stage PUnit := fun s =>
  match w.client s.clock with
  | none => (.ok ⟨⟩, { s with clock := s.clock + 1 })
  | some text => (.raised text, { s with clock := s.clock + 1 })

/-- `client.upload`: what is sent has been sent, also where the call raises. -/
def send (remote : String) (content : Content) : Stage PUnit := do
  Prog.modify fun s => { s with sent := s.sent ++ [⟨remote, content⟩] }
  callClient w

/-- `client.makedirs`, once for each directory. -/
def makeParent (parent : String) : Stage PUnit := do
  let s ← Prog.get
  if parent = "" ∨ parent ∈ s.madeDirs then pure ⟨⟩
  else
    callClient w
    Prog.modify fun s => { s with madeDirs := s.madeDirs ++ [parent] }

/-- `_upload_checked` of a file of this size. -/
def uploadChecked (localPath : String) (size : Nat) (remote : String) (content : Content) :
    Stage PUnit := do
  raiseIf (size > contentsUploadCeiling)
    (s!"Refusing upload of {localPath}: {size} bytes exceeds the " ++
      "250 MB Contents ceiling; use a data URL instead.")
  makeParent w (parentOf remote)
  send w remote content

def tempFile : Stage String := fun s =>
  (.ok (w.tempFile s.clock), { s with clock := s.clock + 1 })

def lockRows (sourceFiles : List SourceFileLock) : List (String × SourceFileLock) :=
  Dict.ofPairs (sourceFiles.map fun row => (row.path, row))

def stageUserFile (budget : Nat) (srcRemote : String)
    (expected : Option (List (String × SourceFileLock))) (file : UserFile) : Stage PUnit := do
  match expected with
  | none =>
      let content ← snapshotUserFile w budget file.path
      uploadChecked w (← tempFile w) content.length (remoteJoin srcRemote file.relative)
        (.userFile content)
  | some rows =>
      match rows.lookup file.relative with
      | none => Prog.raise s!"undeclared source file: {file.relative}"
      | some lock =>
          let content ← snapshotUserFile w budget file.path
          raiseIf (hashUserFile w content != (lock.sizeBytes, lock.sha256))
            s!"source file changed while staging: {file.relative}"
          uploadChecked w (← tempFile w) content.length (remoteJoin srcRemote file.relative)
            (.userFile content)

/-- The paths of a bundle, one after the other: each is looked at again when its turn
comes. -/
def stageTree (budget : Nat) (srcRemote root : String) (excluded : List (List String))
    (expected : Option (List (String × SourceFileLock))) :
    List (List String) -> Stage (List String)
  | [] => pure []
  | names :: rest => do
      match ← bundleFile w root excluded names with
      | none => stageTree budget srcRemote root excluded expected rest
      | some file =>
          stageUserFile w budget srcRemote expected file
          let more ← stageTree budget srcRemote root excluded expected rest
          pure (file.relative :: more)

/-- The user's files; the result is `uploaded`. -/
def stageUserFiles (budget : Nat) (spec : JobSpec) (srcRemote : String)
    (sourceSpecPath : Option String) (expected : Option (List (String × SourceFileLock))) :
    Stage (List String) := do
  let root := rootOf spec
  let excluded ← excludedPaths w sourceSpecPath
  match spec.code.kind with
  | .file =>
      let file ← entryFile w root spec.code.entry excluded
      stageUserFile w budget srcRemote expected file
      pure [file.relative]
  | .bundle =>
      raiseIf (!(← look w (·.isDir root))) s!"code bundle root does not exist: {root}"
      stageTree w budget srcRemote root excluded expected (← sortedTree w budget root)

def writeManifest (remoteDir name : String) (rows : List Json) : Stage PUnit :=
  if rows = [] then pure ⟨⟩
  else do
    uploadChecked w (← tempFile w) (w.documentSize (.arr rows)) (remoteJoin remoteDir name)
      (.document (.arr rows))

def writeSecrets (secretDir : String) (transfer : Option Json) : Stage PUnit :=
  match transfer with
  | none => pure ⟨⟩
  | some value => do
      Prog.modify fun s => { s with madeDirs := s.madeDirs ++ [secretDir] }
      uploadChecked w (← tempFile w) (w.documentSize value)
        (remoteJoin secretDir "transfer.json") (.document value)

def stagePayload (budget : Nat) (spec : JobSpec) (remoteDir : String)
    (sourceSpecPath : Option String) (sourceFiles : Option (List SourceFileLock)) :
    Stage PUnit := do
  let runtimeRemote := remoteJoin remoteDir "mighty_runtime"
  Prog.forEach (fun file : String × Nat =>
    uploadChecked w file.1 file.2 (remoteJoin runtimeRemote file.1) (.runtimeFile file.1))
    w.runtime
  let expected := sourceFiles.map lockRows
  let uploaded ← stageUserFiles w budget spec (remoteJoin remoteDir "src") sourceSpecPath expected
  match expected with
  | none => pure ⟨⟩
  | some rows =>
      raiseIf (uploaded.toFinset ≠ (Dict.keys rows).toFinset)
        "source payload does not match the plan"
  writeManifest w remoteDir "stage.manifest.json"
    (spec.data.map fun item => .obj (TransferChannel.dataRow w.tools item))
  writeManifest w remoteDir "offload.manifest.json"
    (spec.artifacts.map fun item => .obj (TransferChannel.artifactRow w.tools item))
  writeSecrets w (remoteJoin runtimeRemote ".secrets")
    (TransferChannel.stagePayload w.tools spec).transfer

/-!
## What sends nothing of the user's
-/

def Quiet {result : Type} (p : Stage result) : Prop :=
  forall files, Prog.Keeps (fun s : Staging => s.userFiles = files) p

section Quiet

variable {w} {result result' : Type}

theorem Quiet.ok {p : Stage result} (hp : Quiet p) {s s' : Staging} {value : result}
    (h : p s = (.ok value, s')) : s'.userFiles = s.userFiles := by
  have hkept := hp s.userFiles s rfl
  rwa [h] at hkept

theorem Quiet.bind {p : Stage result} {f : result -> Stage result'} (hp : Quiet p)
    (hf : forall value, Quiet (f value)) : Quiet (p >>= f) :=
  fun files => Prog.Keeps.bind (hp files) fun value => hf value files

theorem Quiet.pure (value : result) : Quiet (pure value : Stage result) :=
  fun _ => Prog.Keeps.pure value

theorem Quiet.raise (text : String) : Quiet (Prog.raise text : Stage result) :=
  fun _ => Prog.Keeps.raise text

theorem Quiet.ite {c : Prop} [Decidable c] {p q : Stage result} (hp : Quiet p)
    (hq : Quiet q) : Quiet (if c then p else q) :=
  fun files => Prog.Keeps.ite (hp files) (hq files)

theorem raiseIf_quiet (condition : Bool) (text : String) : Quiet (raiseIf condition text) :=
  Quiet.ite (Quiet.raise text) (Quiet.pure _)

theorem look_quiet (ask : Disk -> result) : Quiet (look w ask) := fun _ _ h => h

theorem orRaise_quiet (value : Except String result) : Quiet (orRaise value) := by
  cases value with
  | error text => exact Quiet.raise text
  | ok value => exact Quiet.pure value

theorem tempFile_quiet : Quiet (tempFile w) := fun _ _ h => h

theorem callClient_quiet : Quiet (callClient w) := by
  intro files s h
  unfold callClient
  split
  · exact h
  · exact h

theorem validateUserFile_quiet (path root : String) : Quiet (validateUserFile w path root) := by
  unfold validateUserFile
  refine (look_quiet _).bind fun link => (raiseIf_quiet _ _).bind fun _ => ?_
  refine (look_quiet _).bind fun resolved => ?_
  split
  · exact Quiet.raise _
  · exact Quiet.raise _
  · refine (look_quiet _).bind fun rootResolved => ?_
    split
    · exact Quiet.raise _
    · exact Quiet.raise _
    · refine (raiseIf_quiet _ _).bind fun _ => (look_quiet _).bind fun links => ?_
      exact (orRaise_quiet _).bind fun count => raiseIf_quiet _ _

theorem excludedPaths_quiet (path : Option String) : Quiet (excludedPaths w path) := by
  unfold excludedPaths
  split
  · exact Quiet.pure _
  · refine Quiet.ite (Quiet.pure _) ?_
    exact (look_quiet _).bind fun names => (orRaise_quiet _).bind fun _ => Quiet.pure _

theorem entryFile_quiet (root entry : String) (excluded : List (List String)) :
    Quiet (entryFile w root entry excluded) := by
  unfold entryFile
  refine (look_quiet _).bind fun isFile => (raiseIf_quiet _ _).bind fun _ => ?_
  refine (look_quiet _).bind fun names => (orRaise_quiet _).bind fun _ => ?_
  refine (raiseIf_quiet _ _).bind fun _ => (validateUserFile_quiet _ _).bind fun _ => ?_
  exact Quiet.pure _

theorem bundleFile_quiet (root : String) (excluded : List (List String)) (names : List String) :
    Quiet (bundleFile w root excluded names) := by
  unfold bundleFile
  refine Quiet.ite (Quiet.pure _) ?_
  refine (look_quiet _).bind fun link => (raiseIf_quiet _ _).bind fun _ => ?_
  refine (look_quiet _).bind fun isDir => Quiet.ite (Quiet.pure _) ?_
  refine (look_quiet _).bind fun resolved => (orRaise_quiet _).bind fun _ => ?_
  refine Quiet.ite (Quiet.pure _) ?_
  exact (validateUserFile_quiet _ _).bind fun _ => Quiet.pure _

theorem childrenOf_quiet (root : String) (dir : List String) :
    Quiet (TreeWalk.childrenOf (scan w root) dir) := by
  refine Quiet.bind (look_quiet _) fun listing => ?_
  cases listing with
  | none => exact Quiet.pure _
  | some entries => exact Quiet.pure _

theorem childrenOfAll_quiet (root : String) (dirs : List (List String)) :
    Quiet (TreeWalk.childrenOfAll (scan w root) dirs) := by
  induction dirs with
  | nil => exact Quiet.pure _
  | cons dir rest ih =>
      exact (childrenOf_quiet _ _).bind fun _ => ih.bind fun _ => Quiet.pure _

theorem walk_quiet (root : String) (budget : Nat) : forall stack,
    Quiet (TreeWalk.walk (scan w root) budget stack) := by
  induction budget with
  | zero =>
      intro stack
      cases stack with
      | nil => exact Quiet.pure _
      | cons dir stack => exact fun files s h => h
  | succ budget ih =>
      intro stack
      cases stack with
      | nil => exact Quiet.pure _
      | cons dir stack =>
          refine Quiet.bind (look_quiet _) fun listing => ?_
          cases listing with
          | none => exact ih stack
          | some entries =>
              exact (childrenOfAll_quiet _ _).bind fun _ => (ih _).bind fun _ => Quiet.pure _

theorem sortedTree_quiet (budget : Nat) (root : String) : Quiet (sortedTree w budget root) := by
  have hrglob : Quiet (TreeWalk.rglob (scan w root) budget) :=
    (childrenOf_quiet _ _).bind fun _ => (walk_quiet _ _ _).bind fun _ => Quiet.pure _
  exact hrglob.bind fun _ => Quiet.pure _

theorem copyFile_quiet (budget handle : Nat) : forall offset,
    Quiet (copyFile w budget handle offset) := by
  induction budget with
  | zero =>
      intro offset files s h
      exact h
  | succ budget ih =>
      intro offset
      unfold copyFile
      refine (look_quiet _).bind fun chunk => Quiet.ite (Quiet.pure _) ?_
      exact (ih _).bind fun rest => Quiet.pure _

theorem snapshotUserFile_quiet (budget : Nat) (path : String) :
    Quiet (snapshotUserFile w budget path) := by
  unfold snapshotUserFile
  refine (look_quiet _).bind fun opened => (orRaise_quiet _).bind fun handle => ?_
  refine (look_quiet _).bind fun sound => (raiseIf_quiet _ _).bind fun _ => ?_
  refine (copyFile_quiet _ _ _).bind fun content => ?_
  split
  · exact Quiet.raise _
  · exact Quiet.pure _

theorem makeParent_quiet (parent : String) : Quiet (makeParent w parent) := by
  have hadd : Quiet (do
      callClient w
      Prog.modify fun s => { s with madeDirs := s.madeDirs ++ [parent] }) :=
    callClient_quiet.bind fun _ => fun _ => Prog.Keeps.modify fun _ h => h
  intro files
  refine Prog.Keeps.get_bind fun s h => ?_
  split
  · exact h
  · exact hadd files s h

theorem send_quiet {remote : String} {content : Content}
    (h : forall bytes, content ≠ .userFile bytes) : Quiet (send w remote content) := by
  refine Quiet.bind (fun files => Prog.Keeps.modify fun s hs => ?_) fun _ => callClient_quiet
  cases content with
  | userFile bytes => exact absurd rfl (h bytes)
  | runtimeFile relative => simpa [Staging.userFiles] using hs
  | document value => simpa [Staging.userFiles] using hs

theorem uploadChecked_quiet {localPath remote : String} {size : Nat} {content : Content}
    (h : forall bytes, content ≠ .userFile bytes) :
    Quiet (uploadChecked w localPath size remote content) :=
  (raiseIf_quiet _ _).bind fun _ => (makeParent_quiet _).bind fun _ => send_quiet h

theorem writeManifest_quiet (remoteDir name : String) (rows : List Json) :
    Quiet (writeManifest w remoteDir name rows) :=
  Quiet.ite (Quiet.pure _) (tempFile_quiet.bind fun _ => uploadChecked_quiet nofun)

theorem writeSecrets_quiet (secretDir : String) (transfer : Option Json) :
    Quiet (writeSecrets w secretDir transfer) := by
  cases transfer with
  | none => exact Quiet.pure _
  | some value =>
      refine Quiet.bind (fun files => Prog.Keeps.modify fun _ h => h) fun _ => ?_
      exact tempFile_quiet.bind fun _ => uploadChecked_quiet nofun

end Quiet

/-!
## The user's files
-/

section Files

variable {w} {s s' : Staging} {rows : List (String × SourceFileLock)} {budget : Nat}

theorem raiseIf_ok {condition : Bool} {text : String} {u : PUnit}
    (h : raiseIf condition text s = (.ok u, s')) : condition = false ∧ s = s' := by
  cases condition with
  | true => cases h
  | false => exact ⟨rfl, (Prog.pure_eq_ok h).2⟩

theorem send_userFile {remote : String} {content : Bytes} {u : PUnit}
    (h : send w remote (.userFile content) s = (.ok u, s')) :
    s'.userFiles = s.userFiles ++ [(remote, content)] := by
  rcases Prog.bind_eq_ok h with ⟨v, t, hsent, hcall⟩
  rw [callClient_quiet.ok hcall]
  cases hsent
  simp [Staging.userFiles]

theorem uploadChecked_userFile {localPath remote : String} {size : Nat} {content : Bytes}
    {u : PUnit} (h : uploadChecked w localPath size remote (.userFile content) s = (.ok u, s')) :
    s'.userFiles = s.userFiles ++ [(remote, content)] := by
  rcases Prog.bind_eq_ok h with ⟨_, t, hsize, h⟩
  rcases Prog.bind_eq_ok h with ⟨_, t', hparent, hsend⟩
  rw [send_userFile hsend, (makeParent_quiet _).ok hparent, (raiseIf_quiet _ _).ok hsize]

structure Locked (w : World) (rows : List (String × SourceFileLock)) (file : String × Bytes) :
    Prop where
  row : exists lock, rows.lookup file.1 = some lock ∧ (file.2.length : Int) = lock.sizeBytes ∧
    w.sha256 file.2 = lock.sha256

theorem stageUserFile_ok {srcRemote : String} {file : UserFile} {u : PUnit}
    (h : stageUserFile w budget srcRemote (some rows) file s = (.ok u, s')) :
    exists content, Locked w rows (file.relative, content) ∧
      s'.userFiles = s.userFiles ++ [(remoteJoin srcRemote file.relative, content)] := by
  unfold stageUserFile at h
  dsimp only at h
  cases hlookup : rows.lookup file.relative with
  | none =>
      rw [hlookup] at h
      cases h
  | some lock =>
      rw [hlookup] at h
      rcases Prog.bind_eq_ok h with ⟨content, t, hsnapshot, h⟩
      rcases Prog.bind_eq_ok h with ⟨_, t', hhash, h⟩
      rcases Prog.bind_eq_ok h with ⟨temp, t'', htemp, hupload⟩
      rcases raiseIf_ok hhash with ⟨hsame, rfl⟩
      rw [bne_eq_false_iff_eq, hashUserFile, Prod.mk.injEq] at hsame
      refine ⟨content, ⟨lock, hlookup, hsame.1, hsame.2⟩, ?_⟩
      rw [uploadChecked_userFile hupload, tempFile_quiet.ok htemp,
        (snapshotUserFile_quiet _ _).ok hsnapshot]

structure Sends (w : World) (rows : List (String × SourceFileLock)) (srcRemote : String)
    (s s' : Staging) (files : List (String × Bytes)) : Prop where
  sent : s'.userFiles = s.userFiles ++ files.map fun file => (remoteJoin srcRemote file.1, file.2)
  locked : forall file, file ∈ files -> Locked w rows file

theorem bundleFile_relative {root : String} {excluded : List (List String)}
    {names : List String} {file : UserFile}
    (h : bundleFile w root excluded names s = (.ok (some file), s')) :
    file.relative = joinNames names := by
  unfold bundleFile at h
  by_cases hskipped : names.any skippedParts.contains = true
  · rw [if_pos hskipped] at h
    cases h
  · rw [if_neg hskipped] at h
    rcases Prog.bind_eq_ok h with ⟨_, _, _, h⟩
    rcases Prog.bind_eq_ok h with ⟨_, _, _, h⟩
    rcases Prog.bind_eq_ok h with ⟨isDir, _, _, h⟩
    by_cases hdir : (isDir || isPyc (names.getLast?.getD "")) = true
    · rw [if_pos hdir] at h
      cases h
    · rw [if_neg hdir] at h
      rcases Prog.bind_eq_ok h with ⟨_, _, _, h⟩
      rcases Prog.bind_eq_ok h with ⟨resolved, _, _, h⟩
      by_cases hexcluded : (excluded.contains resolved ||
          reserved (names.getLast?.getD "")) = true
      · rw [if_pos hexcluded] at h
        cases h
      · rw [if_neg hexcluded] at h
        rcases Prog.bind_eq_ok h with ⟨_, _, _, h⟩
        cases (Prog.pure_eq_ok h).1
        rfl

theorem stageTree_ok {srcRemote root : String} {excluded paths : List (List String)}
    {uploaded : List String}
    (h : stageTree w budget srcRemote root excluded (some rows) paths s = (.ok uploaded, s')) :
    exists files, Sends w rows srcRemote s s' files ∧ uploaded = files.map Prod.fst ∧
      uploaded.Sublist (paths.map joinNames) := by
  induction paths generalizing s uploaded with
  | nil =>
      rcases Prog.pure_eq_ok h with ⟨rfl, rfl⟩
      exact ⟨[], ⟨by simp, fun _ hfile => nomatch hfile⟩, rfl, .slnil⟩
  | cons names rest ih =>
      rcases Prog.bind_eq_ok h with ⟨found, t, hfound, h⟩
      have hquiet := (bundleFile_quiet root excluded names).ok hfound
      cases found with
      | none =>
          rcases ih h with ⟨files, hsends, huploaded, hsublist⟩
          exact ⟨files, ⟨by rw [hsends.sent, hquiet], hsends.locked⟩, huploaded,
            hsublist.cons _⟩
      | some file =>
          rcases Prog.bind_eq_ok h with ⟨_, t', hfile, h⟩
          rcases Prog.bind_eq_ok h with ⟨more, t'', hmore, h⟩
          rcases Prog.pure_eq_ok h with ⟨rfl, rfl⟩
          rcases stageUserFile_ok hfile with ⟨content, hlocked, hsent⟩
          rcases ih hmore with ⟨files, hsends, huploaded, hsublist⟩
          refine ⟨(file.relative, content) :: files, ⟨?_, ?_⟩, by rw [huploaded]; rfl, ?_⟩
          · rw [hsends.sent, hsent, hquiet]
            simp
          · intro other hother
            rcases List.mem_cons.mp hother with rfl | hin
            · exact hlocked
            · exact hsends.locked other hin
          · rw [List.map_cons, bundleFile_relative hfound]
            exact hsublist.cons_cons _

/-!
## Keys
-/

theorem toList_joinNames (names : List String) :
    (joinNames names).toList = ['/'].intercalate (names.map String.toList) := by
  rw [joinNames, String.toList_intercalate]
  rfl

theorem joinNames_inj {names other : List String} (hne : names ≠ []) (hne' : other ≠ [])
    (hnames : forall n, n ∈ names -> Path.Segment n)
    (hother : forall n, n ∈ other -> Path.Segment n)
    (h : joinNames names = joinNames other) : names = other := by
  have hsplit : forall list : List String, list ≠ [] -> (forall n, n ∈ list -> Path.Segment n) ->
      (['/'].intercalate (list.map String.toList)).splitOn '/' = list.map String.toList := by
    intro list hlist hsegments
    apply List.splitOn_intercalate
    · intro text htext
      rcases List.mem_map.mp htext with ⟨name, hname, rfl⟩
      exact (hsegments name hname).2.2.2
    · simpa using hlist
  have hlist := congrArg String.toList h
  rw [toList_joinNames, toList_joinNames] at hlist
  have hmap := congrArg (List.splitOn '/') hlist
  rw [hsplit names hne hnames, hsplit other hne' hother] at hmap
  exact List.map_injective_iff.mpr (fun _ _ => String.toList_inj.mp) hmap

theorem remoteJoin_joinNames {root : String} {names : List String} (hne : names ≠ [])
    (hnames : forall n, n ∈ names -> Path.Segment n) :
    remoteJoin root (joinNames names) =
      remoteJoin root "" ++ joinNames names := by
  cases names with
  | nil => exact absurd rfl hne
  | cons name rest =>
      have hsegment := hnames name List.mem_cons_self
      have hhead : (joinNames (name :: rest)).toList.dropWhile (· = '/') =
          (joinNames (name :: rest)).toList := by
        rw [toList_joinNames]
        cases htext : name.toList with
        | nil => exact absurd (String.toList_inj.mp htext) hsegment.1
        | cons c more =>
            have hc : c ≠ '/' := by
              rintro rfl
              exact hsegment.2.2.2 (htext ▸ List.mem_cons_self)
            cases rest with
            | nil => simp [List.intercalate, htext, hc]
            | cons next others => simp [List.intercalate, htext, hc]
      apply String.toList_inj.mp
      rw [remoteJoin, remoteJoin, String.toList_append, String.toList_ofList,
        String.toList_ofList, hhead]
      simp

theorem scan_lists (root : String) : TreeWalk.Lists (scan w root) Path.Segment := by
  intro dir s entries s' h
  cases hentries : (w.disk s.clock).entries (if dir = [] then root else pathText root dir) with
  | none =>
      rw [scan, look, hentries] at h
      cases h
  | some found =>
      rw [scan, look, hentries] at h
      cases h
      exact (w.disk s.clock).listing _ _ hentries

theorem sortedTree_ok {root : String} {paths : List (List String)}
    (h : sortedTree w budget root s = (.ok paths, s')) :
    paths.Nodup ∧ forall p, p ∈ paths -> p ≠ [] ∧ forall n, n ∈ p -> Path.Segment n := by
  rcases Prog.bind_eq_ok h with ⟨found, t, hfound, h⟩
  rcases TreeWalk.rglob_ok (scan_lists root) hfound with ⟨hnodup, hof⟩
  have hperm := List.perm_insertionSort (· ≤ ·) found
  rw [← (Prog.pure_eq_ok h).1]
  exact ⟨hperm.nodup_iff.mpr hnodup, fun p hp => hof p (hperm.mem_iff.mp hp)⟩

theorem keys_nodup {paths : List (List String)} (hnodup : paths.Nodup)
    (hpaths : forall p, p ∈ paths -> p ≠ [] ∧ forall n, n ∈ p -> Path.Segment n) :
    (paths.map joinNames).Nodup := by
  refine hnodup.map_on ?_
  intro p hp q hq heq
  exact joinNames_inj (hpaths p hp).1 (hpaths q hq).1 (hpaths p hp).2 (hpaths q hq).2 heq

theorem remotes_nodup {paths : List (List String)} (hnodup : paths.Nodup)
    (hpaths : forall p, p ∈ paths -> p ≠ [] ∧ forall n, n ∈ p -> Path.Segment n)
    (root : String) : ((paths.map joinNames).map (remoteJoin root)).Nodup := by
  rw [List.map_map]
  refine hnodup.map_on ?_
  intro p hp q hq heq
  rw [Function.comp, Function.comp, remoteJoin_joinNames (hpaths p hp).1 (hpaths p hp).2,
    remoteJoin_joinNames (hpaths q hq).1 (hpaths q hq).2] at heq
  have htext := congrArg String.toList heq
  rw [String.toList_append, String.toList_append] at htext
  have hkey := String.toList_inj.mp (List.append_cancel_left htext)
  exact joinNames_inj (hpaths p hp).1 (hpaths q hq).1 (hpaths p hp).2 (hpaths q hq).2 hkey

theorem stageUserFiles_ok {spec : JobSpec} {srcRemote : String} {sourceSpecPath : Option String}
    {uploaded : List String}
    (h : stageUserFiles w budget spec srcRemote sourceSpecPath (some rows) s =
      (.ok uploaded, s')) :
    exists files, Sends w rows srcRemote s s' files ∧ uploaded = files.map Prod.fst ∧
      uploaded.Nodup ∧ (uploaded.map (remoteJoin srcRemote)).Nodup := by
  unfold stageUserFiles at h
  rcases Prog.bind_eq_ok h with ⟨excluded, t, hexcluded, h⟩
  have hfirst := (excludedPaths_quiet sourceSpecPath).ok hexcluded
  cases hkind : spec.code.kind with
  | file =>
      rw [hkind] at h
      rcases Prog.bind_eq_ok h with ⟨file, t', hentry, h⟩
      rcases Prog.bind_eq_ok h with ⟨_, t'', hfile, h⟩
      rcases Prog.pure_eq_ok h with ⟨rfl, rfl⟩
      rcases stageUserFile_ok hfile with ⟨content, hlocked, hsent⟩
      refine ⟨[(file.relative, content)], ⟨?_, ?_⟩, rfl, by simp, by simp⟩
      · rw [hsent, (entryFile_quiet _ _ _).ok hentry, hfirst]
        rfl
      · intro other hother
        rw [List.mem_singleton.mp hother]
        exact hlocked
  | bundle =>
      rw [hkind] at h
      rcases Prog.bind_eq_ok h with ⟨_, t', hdir, h⟩
      rcases Prog.bind_eq_ok h with ⟨_, t'', hcheck, h⟩
      rcases Prog.bind_eq_ok h with ⟨paths, t3, hsorted, h⟩
      rcases sortedTree_ok hsorted with ⟨hnodup, hpaths⟩
      rcases stageTree_ok h with ⟨files, hsends, huploaded, hsublist⟩
      refine ⟨files, ⟨?_, hsends.locked⟩, huploaded,
        (keys_nodup hnodup hpaths).sublist hsublist,
        (remotes_nodup hnodup hpaths srcRemote).sublist (hsublist.map _)⟩
      rw [hsends.sent, (sortedTree_quiet _ _).ok hsorted, (raiseIf_quiet _ _).ok hcheck,
        (look_quiet _).ok hdir, hfirst]

end Files

/-!
## What has been staged
-/

theorem lookup_lockRows {lock : List SourceFileLock} {path : String} {row : SourceFileLock}
    (h : (lockRows lock).lookup path = some row) : row ∈ lock ∧ row.path = path := by
  rcases List.lookup_eq_some_iff.mp h with ⟨first, rest, heq, _⟩
  have hmem : (path, row) ∈ lockRows lock := by
    rw [heq]
    simp
  rcases List.mem_map.mp (Dict.mem_ofPairs hmem) with ⟨other, hother, hpair⟩
  cases hpair
  exact ⟨hother, rfl⟩

theorem mem_keys_lockRows {lock : List SourceFileLock} {path : String} :
    path ∈ Dict.keys (lockRows lock) <-> path ∈ lock.map SourceFileLock.path := by
  rw [lockRows, Dict.mem_keys_ofPairs, Dict.keys, List.map_map]
  rfl

/-- Whatever becomes of the source tree in the meantime: where `stage_payload` returns, the
user's files that it has sent are the locked ones. Each locked path was sent once, no other
path was, and what was sent has the size and the digest that the lock has for it; so it is
what the lock was made from, unless the digest confuses the two. -/
theorem stagePayload_locked (w : World) (budget : Nat) (spec : JobSpec) (remoteDir : String)
    (sourceSpecPath : Option String) (lock : List SourceFileLock) (s : Staging)
    (hrun : stagePayload w budget spec remoteDir sourceSpecPath (some lock) {} = (.ok ⟨⟩, s)) :
    exists files : List (String × Bytes),
      s.userFiles = files.map (fun file => (remoteJoin (remoteJoin remoteDir "src") file.1,
        file.2)) ∧
      (files.map Prod.fst).Nodup ∧ (s.userFiles.map Prod.fst).Nodup ∧
      (forall path, path ∈ files.map Prod.fst <-> path ∈ lock.map SourceFileLock.path) ∧
      (forall path content, (path, content) ∈ files -> exists row,
        (lockRows lock).lookup path = some row ∧ row ∈ lock ∧ row.path = path ∧
          (content.length : Int) = row.sizeBytes ∧ w.sha256 content = row.sha256) ∧
      forall planned : String -> Bytes,
        (forall row, row ∈ lock -> row.sha256 = w.sha256 (planned row.path)) ->
        (forall path content, (path, content) ∈ files ->
          w.sha256 content = w.sha256 (planned path) -> content = planned path) ->
        forall path content, (path, content) ∈ files -> content = planned path := by
  unfold stagePayload at hrun
  rcases Prog.bind_eq_ok hrun with ⟨_, t, hruntime, h⟩
  rcases Prog.bind_eq_ok h with ⟨uploaded, t', huser, h⟩
  rcases Prog.bind_eq_ok h with ⟨_, t'', hsets, h⟩
  rcases Prog.bind_eq_ok h with ⟨_, t3, hstage, h⟩
  rcases Prog.bind_eq_ok h with ⟨_, t4, hoffload, hsecrets⟩
  rcases raiseIf_ok hsets with ⟨hsame, rfl⟩
  rcases stageUserFiles_ok huser with ⟨files, hsends, huploaded, hkeys, hremotes⟩
  have hbefore : t.userFiles = [] := by
    have hquiet : Quiet (Prog.forEach (fun file : String × Nat =>
        uploadChecked w file.1 file.2
          (remoteJoin (remoteJoin remoteDir "mighty_runtime") file.1) (.runtimeFile file.1))
        w.runtime) := by
      intro files
      apply Prog.Keeps.forEach
      intro file
      have hruntimeFile : forall bytes, Content.runtimeFile file.1 ≠ .userFile bytes := nofun
      exact uploadChecked_quiet hruntimeFile files
    exact hquiet.ok hruntime
  have hsent : s.userFiles = files.map fun file =>
      (remoteJoin (remoteJoin remoteDir "src") file.1, file.2) := by
    rw [(writeSecrets_quiet _ _).ok hsecrets, (writeManifest_quiet _ _ _).ok hoffload,
      (writeManifest_quiet _ _ _).ok hstage, hsends.sent, hbefore, List.nil_append]
  have hlocked : forall path content, (path, content) ∈ files -> exists row,
      (lockRows lock).lookup path = some row ∧ row ∈ lock ∧ row.path = path ∧
        (content.length : Int) = row.sizeBytes ∧ w.sha256 content = row.sha256 := by
    intro path content hfile
    rcases (hsends.locked _ hfile).row with ⟨row, hlookup, hsize, hdigest⟩
    rcases lookup_lockRows hlookup with ⟨hrow, hpath⟩
    exact ⟨row, hlookup, hrow, hpath, hsize, hdigest⟩
  rw [huploaded] at hkeys hremotes hsame
  refine ⟨files, hsent, hkeys, ?_, ?_, hlocked, ?_⟩
  · rw [hsent, List.map_map]
    rwa [List.map_map] at hremotes
  · intro path
    have hset : (files.map Prod.fst).toFinset = (Dict.keys (lockRows lock)).toFinset := by
      simpa using hsame
    rw [← mem_keys_lockRows, ← List.mem_toFinset, hset, List.mem_toFinset]
  · intro planned hplanned hcollision path content hfile
    rcases hlocked path content hfile with ⟨row, _, hrow, hpath, _, hdigest⟩
    apply hcollision path content hfile
    rw [hdigest, hplanned row hrow, hpath]

/-- `pass`, and the end of the line. -/
def passLine : Bytes := [112, 97, 115, 115, 10]

def passDigest : String :=
  "9f56e761d79bfdb34304a012586cb04d16b435ef6130091a97702e559260a2f2"

def oneFile (content : Bytes) : Disk where
  isFile path := path = "main.py"
  isDir path := path = "."
  isSymlink _ := false
  entries path := if path = "." then some [("main.py", false)] else none
  listing := by
    intro path found h
    split at h
    · cases h
      exact ⟨by simp, by simp [Path.Segment]⟩
    · cases h
  resolve path := .ok (if path = "." then ["w"] else ["w", path])
  resolveStrict path := .ok (if path = "." then ["w"] else ["w", path])
  links _ := .ok 1
  openFile _ := .ok 3
  regular _ := true
  openLinks _ := 1
  read _ offset := content.drop offset

def emptiedLater : World where
  tools := asciiTools [] noDigests
  casefold := id
  loadYaml _ := none
  sha256 content := if content = passLine then passDigest else ""
  disk clock := oneFile (if clock < 14 then passLine else [])
  client _ := none
  runtime := []
  documentSize _ := 2
  tempFile _ := "/tmp/t"

def stageOne : Stage PUnit :=
  stagePayload emptiedLater 2 { name := "n", code := { kind := .bundle, entry := "main.py" } }
    "/r" none (some [⟨"main.py", 5, passDigest⟩])

theorem stagePayload_locked_one : exists (s : Staging) (files : List (String × Bytes)),
    stageOne {} = (.ok ⟨⟩, s) ∧
    s.userFiles = files.map (fun file => (remoteJoin (remoteJoin "/r" "src") file.1,
      file.2)) ∧
    (forall path, path ∈ files.map Prod.fst <-> path = "main.py") ∧
    forall path content, (path, content) ∈ files -> content = passLine := by
  have hended : (stageOne {}).1 = .ok ⟨⟩ := by decide +kernel
  have hrun : stageOne {} = (.ok ⟨⟩, (stageOne {}).2) := by rw [← hended]
  rcases stagePayload_locked _ _ _ _ _ _ _ hrun with
    ⟨files, hsent, _, _, hpaths, _, hplanned⟩
  refine ⟨_, files, hrun, hsent, by simpa using hpaths, hplanned (fun _ => passLine) ?_ ?_⟩
  · intro row hrow
    rw [List.mem_singleton.mp hrow]
    rfl
  · intro path content _ hdigest
    by_contra hother
    have hempty : emptiedLater.sha256 content = "" := if_neg hother
    rw [hempty] at hdigest
    exact absurd hdigest (by decide)

end StagePayload
end Job
end MightyColab
