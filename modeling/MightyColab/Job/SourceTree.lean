import Mathlib.Data.List.Lex
import Mathlib.Data.List.Sort
import Mathlib.Data.String.Basic
import MightyColab.Lib.Path
import MightyColab.Lib.TreeWalk
import MightyColab.Job.CredentialScan
import MightyColab.Job.Models
import MightyColab.Job.Resources
import MightyColab.Job.Upload

/-!
# The source tree of a job

The user's files, as they are listed, opened and read while others may change them. Each
call looks at the tree at its own moment; nothing is known of what happens between two.
-/

namespace MightyColab
namespace Job

open Lib
open Upload (Bytes)

namespace SourceTree

inductive Fault where
  /-- `FileNotFoundError` or `ValueError`. -/
  | missing (text : String)
  | os (text : String)
  deriving DecidableEq, Repr

/-- What the calls answer at one moment, by the text of a path or the number of an open
file. -/
structure Disk where
  isFile : String -> Bool
  isDir : String -> Bool
  isSymlink : String -> Bool
  /-- `os.scandir`, with `entry.is_dir(follow_symlinks=False)`. -/
  entries : String -> Option (List (String × Bool))
  /-- A listing names each entry once. -/
  listing : forall path found, entries path = some found ->
    (found.map Prod.fst).Nodup ∧ forall entry, entry ∈ found -> Path.Segment entry.1
  /-- `resolve(strict=False)`, as the names from the root. -/
  resolve : String -> Except String (List String)
  resolveStrict : String -> Except Fault (List String)
  /-- `lstat().st_nlink`. -/
  links : String -> Except String Nat
  /-- `os.open(path, O_RDONLY | O_NOFOLLOW)`. -/
  openFile : String -> Except String Nat
  /-- `fstat`: a regular file, and its links. -/
  regular : Nat -> Bool
  openLinks : Nat -> Nat
  /-- The next bytes of an open file, from an offset on; none at its end. -/
  read : Nat -> Nat -> Bytes

/-- The world around one call of `stage_payload`. -/
structure World where
  tools : UrlTools
  casefold : String -> String
  loadYaml : Bytes -> Option Json
  /-- `hashlib.sha256(content).hexdigest()`. -/
  sha256 : Bytes -> String
  /-- The tree at the n-th call. -/
  disk : Nat -> Disk
  /-- What the n-th call of the client raises. -/
  client : Nat -> Option String
  /-- The CLI's own files, with their sizes. -/
  runtime : List (String × Nat)
  /-- The bytes of `json.dump`. -/
  documentSize : Json -> Nat
  /-- The path of a new temporary file. -/
  tempFile : Nat -> String

inductive Content where
  | userFile (content : Bytes)
  | runtimeFile (relative : String)
  | document (value : Json)

structure Sent where
  remote : String
  content : Content

structure Staging where
  /-- The calls so far. -/
  clock : Nat := 0
  madeDirs : List String := []
  sent : List Sent := []

def Staging.userFiles (s : Staging) : List (String × Bytes) :=
  s.sent.filterMap fun sent =>
    match sent.content with
    | .userFile content => some (sent.remote, content)
    | _ => none

abbrev Stage (result : Type) := Prog Staging String result

variable (w : World)

def look {result : Type} (ask : Disk -> result) : Stage result := fun s =>
  (.ok (ask (w.disk s.clock)), { s with clock := s.clock + 1 })

/-- `if condition: raise`. -/
def raiseIf (condition : Bool) (text : String) : Stage PUnit :=
  if condition then Prog.raise text else pure ⟨⟩

def orRaise {result : Type} : Except String result -> Stage result
  | .ok value => pure value
  | .error text => Prog.raise text

/-!
## The files
-/

/-- `code.root`, or the directory that `apply` runs in. -/
def rootOf (spec : JobSpec) : String :=
  match spec.code.root with
  | none => "."
  | some root => if root = "" then "." else root

def joinNames (names : List String) : String := "/".intercalate names

/-- `str(root / names)`. -/
def pathText (root : String) (names : List String) : String :=
  if root = "." then joinNames names else Path.join root (joinNames names)

/-- `as_posix()` of a path, which is its `str` here. -/
def asPosix (path : String) : String :=
  if Path.isAbs path then "/" ++ joinNames (Path.names path)
  else if Path.names path = [] then "."
  else joinNames (Path.names path)

def reserved (name : String) : Bool :=
  Text.endsWith name Resources.secretSidecarSuffix ||
    Text.startsWith name Resources.secretTempPrefix

structure UserFile where
  path : String
  /-- The path below the root, which is the key of the file in the lock. -/
  relative : String

def validateUserFile (path root : String) : Stage PUnit := do
  raiseIf (← look w (·.isSymlink path))
    s!"code payload must not contain symbolic links: {path}"
  let escapes := s!"code payload file escapes its declared root {root}: {path}"
  match ← look w (·.resolveStrict path) with
  | .error (.missing _) => Prog.raise escapes
  | .error (.os text) => Prog.raise text
  | .ok names =>
      match ← look w (·.resolveStrict root) with
      | .error (.missing _) => Prog.raise escapes
      | .error (.os text) => Prog.raise text
      | .ok rootNames =>
          raiseIf (!rootNames.isPrefixOf names) escapes
          let links ← orRaise (← look w (·.links path))
          raiseIf (links != 1) s!"code payload must not contain hard-linked files: {path}"

def excludedPaths (sourceSpecPath : Option String) : Stage (List (List String)) :=
  match sourceSpecPath with
  | none => pure []
  | some path =>
      if path = "" then pure []
      else do
        let names ← orRaise (← look w (·.resolve path))
        pure [names]

/-- The one file of a spec of kind `file`. -/
def entryFile (root entry : String) (excluded : List (List String)) : Stage UserFile := do
  let path := if Path.isAbs entry then asPosix entry else pathText root (Path.names entry)
  raiseIf (!(← look w (·.isFile path))) s!"code entry does not exist: {path}"
  let names ← orRaise (← look w (·.resolve path))
  raiseIf (excluded.contains names || reserved ((Path.names entry).getLast?.getD ""))
    "code entry is a reserved credential record"
  validateUserFile w path root
  pure { path, relative := asPosix entry }

/-- `path.suffix == ".pyc"`. -/
def isPyc (name : String) : Bool := Text.endsWith name ".pyc" && name ≠ ".pyc"

def skippedParts : List String := [".git", "__pycache__", ".venv"]

def bundleFile (root : String) (excluded : List (List String)) (names : List String) :
    Stage (Option UserFile) :=
  if names.any skippedParts.contains then pure none
  else do
    let path := pathText root names
    let name := names.getLast?.getD ""
    raiseIf (← look w (·.isSymlink path))
      s!"code payload must not contain symbolic links: {path}"
    let isDir ← look w (·.isDir path)
    if isDir || isPyc name then pure none
    else
      let resolved ← orRaise (← look w (·.resolve path))
      if excluded.contains resolved || reserved name then pure none
      else
        validateUserFile w path root
        pure (some { path, relative := joinNames names })

/-- `scandir` of a directory below the root. -/
def scan (root : String) : TreeWalk.Scan Staging String String := fun names =>
  look w (·.entries (if names = [] then root else pathText root names))

/-- `sorted(root_path.rglob("*"))`. -/
def sortedTree (budget : Nat) (root : String) : Stage (List (List String)) := do
  let paths ← TreeWalk.rglob (scan w root) budget
  pure (paths.insertionSort (· ≤ ·))

/-!
## Reading
-/

/-- The chunks of an open file until one is empty. A file that keeps growing is not read to
its end within `budget` reads. -/
def copyFile : Nat -> Nat -> Nat -> Stage Bytes
  | 0, _, _ => Prog.exit
  | budget + 1, handle, offset => do
      let chunk ← look w (·.read handle offset)
      if chunk = [] then pure []
      else
        let rest ← copyFile budget handle (offset + chunk.length)
        pure (chunk ++ rest)

/-- `_snapshot_user_file`: the bytes of the private copy. -/
def snapshotUserFile (budget : Nat) (path : String) : Stage Bytes := do
  let handle ← orRaise (← look w (·.openFile path))
  let sound ← look w fun disk => disk.regular handle && disk.openLinks handle == 1
  raiseIf (!sound) "code payload changed while it was being staged"
  let content ← copyFile w budget handle 0
  match CredentialScan.refusal w.tools w.casefold w.loadYaml content with
  | some problem => Prog.raise problem
  | none => pure content

/-- `_hash_user_file` of bytes that nobody changes. -/
def hashUserFile (content : Bytes) : Int × String := (content.length, w.sha256 content)

end SourceTree
end Job
end MightyColab
