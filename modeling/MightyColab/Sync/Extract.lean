import MightyColab.Lib.Prog
import MightyColab.Sync.Archive

/-!
# The remote extract script

`_build_sync_extract_script`: the Python that a VM's kernel runs to install one uploaded
archive below `/content`. It unpacks the archive into a stage next to the destination,
checks what is there, and then exchanges the two. Every file step may raise instead of its
work, after its work or, where it works on a whole tree, anywhere in between. Descriptors
stand for the directories that they were opened on.
-/

namespace MightyColab
namespace Sync

open Lib
open Node (at? alter isDir)

/-!
## The script's world
-/

inductive FileStep where
  | openDirectory | dup | close | stat | mkdir | rmtree | unlink | underContent | openArchive
  | getmembers | lexists | readlinks | exchange | rename
  /-- In `extractall`: of a member and of its directories. -/
  | filter | upperExists | makedirs | makefile | makedir | isdir | attributes
  /-- In `makelink`. -/
  | placeExists | clearPlace | symlink | sourceExists | link
  deriving DecidableEq, Repr

/-- The calls in the `try` of `makelink`. -/
def FileStep.makesLink : FileStep -> Bool
  | .placeExists | .clearPlace | .symlink | .sourceExists | .link => true
  | _ => false

inductive Fault (data : Type) where
  | before (e : Exc)
  | after (e : Exc)
  /-- In the middle of its work, which leaves this where it works. -/
  | partway (e : Exc) (left : Option (Node data))

def Fault.exc {data : Type} : Fault data -> Exc
  | .before e | .after e | .partway e _ => e

/-- What goes wrong, and what the archives are. -/
structure World (data : Type) where
  /-- What the step fails with that comes after these. -/
  fault : List FileStep -> Option (Fault data)
  /-- The members of an archive. -/
  getmembers : data -> Except Exc (List (TarInfo data))
  /-- The links that an error hides from `os.walk` or `os.path.islink`, which go on. -/
  unseen : List String -> Bool
  /-- The extractions that may be inside each other at most. -/
  recursion : Nat
  /-- The names that a lookup enters at most. -/
  budget : Nat

/-- What the script is built for; the root of the content is a real directory. -/
structure Args where
  archivePath : String
  destination : String
  operationId : String
  contentRoot : List String := ["content"]
  cwd : List String := ["content"]

def Args.stageName (a : Args) : String := ".mighty-colab-sync-" ++ a.operationId ++ ".stage"

/-- `os.path.basename(archive_path)`. -/
def Args.archiveName (a : Args) : String :=
  String.ofList ((a.archivePath.toList.splitOn '/').getLastD [])

/-- `os.path.abspath`. -/
def Args.absPath (a : Args) (path : String) : List String :=
  Path.resolve (if Path.isAbs path then [] else a.cwd) (Path.names path)

/-- `os.path.relpath` of two absolute paths, where `.` has no names. -/
def relPath : List String -> List String -> List String
  | s :: start, p :: path =>
      if s = p then relPath start path
      else List.replicate (start.length + 1) ".." ++ p :: path
  | start, path => List.replicate start.length ".." ++ path

structure Vars where
  rootFd : Option (List String) := none
  parentFd : Option (List String) := none
  stageFd : Option (List String) := none
  committed : Bool := false
  failure : Option Exc := none
  cleanupWarnings : List String := []
  deriving Inhabited

structure State (data : Type) where
  disk : Option (Node data)
  /-- The steps so far. -/
  trace : List FileStep := []
  /-- The steps that raised. -/
  failed : List (FileStep × Exc) := []
  vars : Vars := {}
  printed : List String := []

def State.left {data : Type} (s : State data) (step : FileStep) (disk : Option (Node data))
    (raised : Option Exc) : State data :=
  { s with
    trace := s.trace ++ [step]
    disk
    failed := s.failed ++ raised.toList.map (step, ·) }

abbrev Script (data result : Type) := Prog (State data) Exc result

section Script

variable {data result : Type} (w : World data)

/-- One file step: what it gives back and leaves on the disk; `work` is the tree that it
works through. -/
def call (step : FileStep) (work : Option (List String))
    (op : Option (Node data) -> Except Exc (result × Option (Node data))) :
    Script data result := fun s =>
  match w.fault s.trace with
  | some (.before e) => (.raised e, s.left step s.disk (some e))
  | some (.partway e rest) =>
      match work with
      | some p => (.raised e, s.left step (alter (fun _ => rest) p s.disk) (some e))
      | none => (.raised e, s.left step s.disk (some e))
  | some (.after e) =>
      match op s.disk with
      | .ok (_, disk) => (.raised e, s.left step disk (some e))
      | .error e' => (.raised e', s.left step s.disk (some e'))
  | none =>
      match op s.disk with
      | .ok (value, disk) => (.ok value, s.left step disk none)
      | .error e => (.raised e, s.left step s.disk (some e))

def look (step : FileStep) (ask : Option (Node data) -> Except Exc result) :
    Script data result :=
  call w step none fun disk => (ask disk).map (·, disk)

/-- `os.path.exists`, `lexists` or `isdir`, which answer no instead of an OSError. -/
def asking (step : FileStep) (ask : Option (Node data) -> Bool) : Script data Bool := fun s =>
  match (w.fault s.trace).map Fault.exc with
  | some e =>
      if e.isOSError then (.ok false, s.left step s.disk none)
      else (.raised e, s.left step s.disk (some e))
  | none => (.ok (ask s.disk), s.left step s.disk none)

def orRaise : Except Exc result -> Script data result
  | .ok value => pure value
  | .error e => Prog.raise e

def assign (f : Vars -> Vars) : Script data PUnit :=
  Prog.modify fun s => { s with vars := f s.vars }

/-- `open_directory`, which follows no link. -/
def openDirectory (path : List String) : Script data (List String) :=
  look w .openDirectory fun disk =>
    match at? path disk with
    | some (.dir _) => .ok path
    | some _ => .error notADirectory
    | none => .error noSuchFile

def mkdir (parent : List String) (name : String) : Script data PUnit :=
  call w .mkdir none fun disk =>
    if isDir (at? parent disk) = false then .error noSuchFile
    else if (at? (parent ++ [name]) disk).isSome then .error fileExists
    else .ok (⟨⟩, alter (fun _ => some (.dir [])) (parent ++ [name]) disk)

def close : Script data PUnit := look w .close fun _ => .ok ⟨⟩

/-- `assert_fd_under_content`: a directory that was opened below the content is still
there, as long as nothing else moves it. -/
def assertFdUnderContent : Script data PUnit := look w .underContent fun _ => .ok ⟨⟩

/-- What `os.stat` finds, without following a link. -/
def stat (parent : List String) (name : String) : Script data (Node data) :=
  look w .stat fun disk =>
    match at? (parent ++ [name]) disk with
    | some n => .ok n
    | none => .error noSuchFile

def catching (kind : Kind) (value : result) (p : Script data result) : Script data result :=
  p.attempt fun e => if e.kind = kind then pure value else Prog.raise e

def entryExists (parent : List String) (name : String) : Script data Bool :=
  catching .fileNotFound false (stat w parent name >>= fun _ => pure true)

def unlink (parent : List String) (name : String) : Script data PUnit :=
  call w .unlink none fun disk =>
    match at? (parent ++ [name]) disk with
    | none => .error noSuchFile
    | some (.dir _) => .error isADirectory
    | some _ => .ok (⟨⟩, alter (fun _ => none) (parent ++ [name]) disk)

def rmtree (parent : List String) (name : String) : Script data PUnit :=
  call w .rmtree (some (parent ++ [name])) fun disk =>
    match at? (parent ++ [name]) disk with
    | some (.dir _) => .ok (⟨⟩, alter (fun _ => none) (parent ++ [name]) disk)
    | some _ => .error notADirectory
    | none => .error noSuchFile

def removeEntry (parent : List String) (name : String) : Script data PUnit := do
  match ← catching .fileNotFound none (stat w parent name >>= fun n => pure (some n)) with
  | none => pure ⟨⟩
  | some (.dir _) => rmtree w parent name
  | some _ => unlink w parent name

/-- `renameat2` with `RENAME_EXCHANGE`. -/
def exchangeEntries (source target : List String) : Script data PUnit :=
  call w .exchange none fun disk =>
    if source <+: target ∨ target <+: source then .error (osError "Invalid argument")
    else
      match at? source disk, at? target disk with
      | some new, some old =>
          .ok (⟨⟩, alter (fun _ => some old) source (alter (fun _ => some new) target disk))
      | _, _ => .error noSuchFile

/-- `os.rename`: an existing target gives way if it is of the same sort and holds
nothing. -/
def rename (source target : List String) : Script data PUnit :=
  call w .rename none fun disk =>
    let moved (new : Node data) :=
      .ok (⟨⟩, alter (fun _ => none) source (alter (fun _ => some new) target disk))
    if source <+: target ∨ target <+: source then .error (osError "Invalid argument")
    else
      match at? source disk, at? target disk with
      | none, _ => .error noSuchFile
      | some new, none => moved new
      | some (.dir new), some (.dir []) => moved (.dir new)
      | some (.dir _), some (.dir _) => .error (osError "Directory not empty")
      | some (.dir _), some _ => .error notADirectory
      | some _, some (.dir _) => .error isADirectory
      | some new, some _ => moved new

/-!
## `extractall`
-/

section Extractall

variable (stage : List String)

def inStage (step : FileStep) (work : Option (List String))
    (op : Option (Node data) -> Except Exc (Option (Node data))) : Script data PUnit :=
  call w step work fun disk =>
    (op (at? stage disk)).map fun t => (⟨⟩, alter (fun _ => t) stage disk)

def askStage (step : FileStep) (ask : Option (Node data) -> Bool) : Script data Bool :=
  asking w step fun disk => ask (at? stage disk)

def enterUpperDirs (path : List String) : Script data PUnit := do
  if ← askStage w stage .upperExists (pathExists w.budget path.dropLast) then pure ⟨⟩
  else inStage w stage .makedirs (some stage) (makedirs w.budget path.dropLast)

def makedir (path : List String) : Script data PUnit :=
  (inStage w stage .makedir none (makeEntryDir w.budget path)).attempt fun e =>
    if e.kind = .fileExists then do
      if ← askStage w stage .isdir fun t => isDir (foundAt w.budget true path t) then pure ⟨⟩
      else Prog.raise e
    else Prog.raise e

/-- How `makelink` fared with the link itself. -/
inductive Linked where
  | made
  /-- What a hard link is to be of is not there. -/
  | missing
  | failed
  deriving DecidableEq, Repr

/-- `os.path.exists` of a hard link's source, which a copied member has none of. An OSError
in it is kept, although the answer is no then too. -/
def sourceExists (copied : Bool) (linkname : String) : Script data Bool :=
  (look w .sourceExists fun disk =>
    if copied then .error noLinkTarget
    else .ok (pathExists w.budget (Path.names linkname) (at? stage disk))).attempt fun e =>
      if e.isOSError then pure false else Prog.raise e

def clearPlace (path : List String) : Script data PUnit := do
  if ← askStage w stage .placeExists (pathLexists w.budget path) then
    inStage w stage .clearPlace none (removeFile w.budget path)
  else pure ⟨⟩

def linkSteps (hard : Bool) (linkname : String) (copied : Bool) (path : List String) :
    Script data Linked := do
  if hard then
    if ← sourceExists w stage copied linkname then
      inStage w stage .link none (hardLink w.budget (Path.names linkname) path)
      pure .made
    else pure .missing
  else
    clearPlace w stage path
    inStage w stage .symlink none (newEntry w.budget (.link linkname) path)
    pure .made

def tryLink (hard : Bool) (linkname : String) (copied : Bool) (path : List String) :
    Script data Linked :=
  (linkSteps w stage hard linkname copied path).attempt fun e =>
    if e.isSymlinkException then pure .failed else Prog.raise e

def filterTarget (m target : TarInfo data) : Script data (Member data) :=
  (look w .filter fun disk => dataFilter w.budget target (at? stage disk)).attempt fun e =>
    if e.isOSError ∨ e.kind = .filterError then
      Prog.raise (filterError "LinkFallbackError" ("link '" ++ m.name ++
        "' would be extracted as a copy of '" ++ target.name ++ "', which was rejected"))
    else Prog.raise e

/-- What is set of a member's mode, owner and times; no where an ExtractError is raised. -/
def setAttributes : Script data Bool :=
  (do look w .attributes fun _ => .ok ⟨⟩
      pure true).attempt fun e =>
    if e.isOSError then pure false else Prog.raise e

/-- The end of `makelink`, where the link is not made: what it is to be of in its stead. The
answer is no where an ExtractError is raised. -/
def copyTarget (members : List (TarInfo data)) (m : TarInfo data) (hard : Bool)
    (linkname : String) (linked : Linked)
    (extract : TarInfo data -> Member data -> Script data Bool) : Script data Bool :=
  match findLinkTarget members m hard linkname with
  | none => if linked = .failed then pure false else Prog.raise (keyError linkname)
  | some target => do
      let copy ← filterTarget w stage m target
      extract target copy

def makelink (members : List (TarInfo data)) (m : TarInfo data) (hard : Bool)
    (linkname : String) (copied : Bool) (path : List String)
    (extract : TarInfo data -> Member data -> Script data Bool) : Script data Bool := do
  let linked ← tryLink w stage hard linkname copied path
  if linked = .made then pure true
  else copyTarget w stage members m hard linkname linked extract

def recursionError : Exc :=
  ⟨.exception, "RecursionError", "maximum recursion depth exceeded"⟩

/-- `_extract_member`, which answers no where it raises an ExtractError. -/
def extractMember (members : List (TarInfo data)) :
    Nat -> TarInfo data -> Member data -> Bool -> List String -> Script data Bool
  | 0, _, _, _, _ => Prog.raise recursionError
  | depth + 1, m, entry, copied, path => do
      enterUpperDirs w stage path
      match entry with
      | .file content => do
          inStage w stage .makefile (some stage) (writeFile w.budget content path)
          setAttributes w
      | .dir => do
          makedir w stage path
          if copied then setAttributes w else pure true
      | .link hard linkname => do
          if ← makelink w stage members m hard linkname copied path fun target copy =>
              extractMember members depth target copy true path then
            setAttributes w
          else pure false

/-- One member: an ExtractError of its extraction is no error at the level of `extractall`. -/
def extractOne (members : List (TarInfo data)) (m : TarInfo data) : Script data PUnit := do
  let entry ← look w .filter fun disk => dataFilter w.budget m (at? stage disk)
  let _ ← extractMember w stage members w.recursion m entry false m.path
  pure ⟨⟩

/-- `extractall`. The directories get their attributes at the end, each whatever became of
the others. -/
def extractall (members : List (TarInfo data)) : Script data PUnit := do
  Prog.forEach (extractOne w stage members) members
  Prog.forEach (fun _ => do
      let _ ← setAttributes w
      pure ⟨⟩)
    (members.filter fun m => m.member matches some .dir)

end Extractall

/-!
## Links
-/

/-- `_joinrealpath` from a directory: where the names lead, and whether they all could be
followed. `seen` holds the links that are being followed. -/
def joinRealPath (disk : Option (Node data)) :
    Nat -> List (List String) -> List String -> List String -> List String × Bool
  | 0, _, here, rest => (here ++ rest, false)
  | _ + 1, _, here, [] => (here, true)
  | budget + 1, seen, here, name :: rest =>
      if name = ".." then joinRealPath disk budget seen here.dropLast rest
      else
        let next := here ++ [name]
        match at? next disk with
        | some (.link target) =>
            if next ∈ seen then (next ++ rest, false)
            else
              match joinRealPath disk budget (next :: seen)
                (if Path.isAbs target then [] else here) (Path.names target) with
              | (found, true) => joinRealPath disk budget seen found rest
              | (found, false) => (found ++ rest, false)
        | _ => joinRealPath disk budget seen next rest

def realPath (disk : Option (Node data)) (budget : Nat) (path : List String) : List String :=
  Path.resolve [] (joinRealPath disk budget [] [] path).1

mutual

def links (here : List String) : Node data -> List (List String × String)
  | .file _ => []
  | .link target => [(here, target)]
  | .dir entries => linksIn here entries

def linksIn (here : List String) : List (String × Node data) -> List (List String × String)
  | [] => []
  | (name, n) :: rest => links (here ++ [name]) n ++ linksIn here rest

end

def validatePayloadLinks (payload : List String) (disk : Option (Node data)) :
    Except Exc PUnit :=
  match at? payload disk with
  | some (.link _) => .error (valueError "sync payload root cannot be a symlink")
  | some n =>
      let escapes (l : List String × String) := !w.unseen l.1 &&
        (Path.isAbs l.2 || !payload.isPrefixOf (realPath disk w.budget l.1))
      match (links payload n).find? escapes with
      | some l => .error (valueError ("sync payload symlink escapes payload: " ++
          "/" ++ "/".intercalate l.1))
      | none => .ok ⟨⟩
  | none => .ok ⟨⟩

/-!
## The script
-/

/-- `posixpath.normpath` of a relative path. -/
def normNames (names : List String) : List String :=
  names.foldl (fun here name =>
    if name = ".." ∧ here.getLastD ".." ≠ ".." then here.dropLast else here ++ [name]) []

def checkMembers (members : List (TarInfo data)) : Except Exc PUnit :=
  let outside (m : TarInfo data) :=
    Path.isAbs m.name || (normNames m.path).head? ≠ some "payload"
  match members.find? outside with
  | some m => .error (valueError ("sync archive member is outside payload/: " ++ m.name))
  | none => .ok ⟨⟩

def outsideContent : Exc := valueError "sync destination resolves outside /content"

def Args.parts (a : Args) : List String := relPath a.contentRoot (a.absPath a.destination)

def destinationParts (a : Args) : Except Exc (List String × String) :=
  if a.parts.head? = some ".." then .error outsideContent
  else
    match a.parts.getLast? with
    | some basename =>
        if basename = ".." then .error outsideContent else .ok (a.parts.dropLast, basename)
    | none => .error outsideContent

def checkArchive (a : Args) : Except Exc PUnit :=
  if 1 < (relPath a.contentRoot (a.absPath a.archivePath)).length then
    .error (valueError "sync archive must be directly under /content")
  else .ok ⟨⟩

def enterPart (parent : List String) (part : String) : Script data (List String) :=
  (openDirectory w (parent ++ [part])).attempt fun e =>
    if e.kind = .fileNotFound then do
      catching .fileExists ⟨⟩ (mkdir w parent part)
      openDirectory w (parent ++ [part])
    else if e.kind = .notADirectory then Prog.raise outsideContent
    else Prog.raise e

def walkParts (parent : List String) : List String -> Script data (List String)
  | [] => pure parent
  | part :: rest => do
      let next ← enterPart w parent part
      close w
      assign fun v => { v with parentFd := some next }
      walkParts next rest

def archiveData (path : List String) : Option (Node data) -> Except Exc data := fun disk =>
  match at? path disk with
  | some (.file content) => .ok content
  | some (.dir _) => .error isADirectory
  | some (.link _) => .error tooManyLinks
  | none => .error noSuchFile

def unpack (root stage : List String) (a : Args) : Script data PUnit := do
  let content ← look w .openArchive (archiveData (root ++ [a.archiveName]))
  let members ← look w .getmembers fun _ => w.getmembers content
  orRaise (checkMembers members)
  extractall w stage members

def makeStage (parent : List String) (a : Args) : Script data (List String) := do
  removeEntry w parent a.stageName
  mkdir w parent a.stageName
  let stage ← openDirectory w (parent ++ [a.stageName])
  assign fun v => { v with stageFd := some stage }
  assertFdUnderContent w
  assertFdUnderContent w
  pure stage

def install (parent stage : List String) (basename : String) : Script data PUnit := do
  let payload := stage ++ ["payload"]
  let present ← asking w .lexists fun disk => (at? payload disk).isSome
  if present = false then
    Prog.raise ⟨.exception, "RuntimeError", "sync archive has no payload root"⟩
  else
    look w .readlinks (validatePayloadLinks w payload)
    assertFdUnderContent w
    if ← entryExists w parent basename then
      exchangeEntries w payload (parent ++ [basename])
    else
      rename w payload (parent ++ [basename])

/-- The `try` block. -/
def body (a : Args) : Script data PUnit := do
  let (parts, basename) ← orRaise (destinationParts a)
  orRaise (checkArchive a)
  let root ← openDirectory w a.contentRoot
  assign fun v => { v with rootFd := some root }
  look w .dup fun _ => .ok ⟨⟩
  assign fun v => { v with parentFd := some root }
  let parent ← walkParts w root parts
  let stage ← makeStage w parent a
  unpack w root stage a
  install w parent stage basename
  assign fun v => { v with committed := true }

/-- One item of the clean-up: what it raises is a warning after the exchange, catching it is
an interrupt, and else the failure if there is none. -/
def tidy (item : Script data PUnit) : Script data PUnit :=
  item.attempt fun e => assign fun v =>
    if v.committed = true ∧ e.kind ≠ .interrupt then
      { v with cleanupWarnings := v.cleanupWarnings ++ [e.typeName ++ ": " ++ e.text] }
    else { v with failure := v.failure.or (some e) }

def withFd (fd : Option (List String)) (f : List String -> Script data PUnit) :
    Script data PUnit :=
  match fd with
  | none => pure ⟨⟩
  | some path => tidy (f path)

def cleanupItems (a : Args) (v : Vars) : Script data PUnit := do
  withFd v.stageFd fun _ => close w
  withFd v.parentFd fun parent => removeEntry w parent a.stageName
  withFd v.rootFd fun root => catching .fileNotFound ⟨⟩ (unlink w root a.archiveName)
  withFd v.parentFd fun _ => close w
  withFd v.rootFd fun _ => close w

/-- The `finally` block. -/
def cleanup (a : Args) : Script data PUnit := do
  let s ← Prog.get
  cleanupItems w a s.vars

def okLine (a : Args) : String := "MIGHTY_COLAB_SYNC_OK:" ++ a.operationId

def report (a : Args) : Script data PUnit := do
  let s ← Prog.get
  match s.vars.failure with
  | some e => Prog.raise e
  | none =>
      Prog.modify fun s => { s with
        printed := s.vars.cleanupWarnings.map ("MIGHTY_COLAB_SYNC_WARNING:" ++ ·) ++
          [okLine a] }

def script (a : Args) : Script data PUnit := do
  (body w a).attempt fun e => assign fun v => { v with failure := some e }
  cleanup w a
  report a

end Script
end Sync
end MightyColab
