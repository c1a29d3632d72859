import MightyColab.Lib.FileTree
import MightyColab.Lib.PosixPath

/-!
# The members of an archive

What `tarfile` makes of an archive's members in a directory under its filter `data`, as
Python 3.12 has it, where nothing fails that need not fail. A directory holds names,
contents and link targets; modes, owners and times are left out.
-/

namespace MightyColab
namespace Sync

open Lib
open Node (at? alter isDir)

/-!
## What may be raised
-/

inductive Kind where
  | fileNotFound | fileExists
  /-- An OSError with errno ELOOP or ENOTDIR. -/
  | notADirectory
  | osError
  | filterError
  /-- An AttributeError or a NotImplementedError. -/
  | unsupported
  | exception
  /-- A BaseException that is no Exception, such as KeyboardInterrupt. -/
  | interrupt
  deriving DecidableEq, Repr

structure Exc where
  kind : Kind
  typeName : String
  text : String
  deriving DecidableEq, Repr

def Exc.isOSError (e : Exc) : Bool :=
  e.kind = .fileNotFound || e.kind = .fileExists || e.kind = .notADirectory || e.kind = .osError

/-- `symlink_exception`, what `makelink` catches. -/
def Exc.isSymlinkException (e : Exc) : Bool := e.isOSError || e.kind = .unsupported

def osError (text : String) : Exc := ⟨.osError, "OSError", text⟩

def valueError (text : String) : Exc := ⟨.exception, "ValueError", text⟩

def fileNotFound (text : String) : Exc := ⟨.fileNotFound, "FileNotFoundError", text⟩

def noSuchFile : Exc := fileNotFound "No such file or directory"

def fileExists : Exc := ⟨.fileExists, "FileExistsError", "File exists"⟩

def notADirectory : Exc := ⟨.notADirectory, "NotADirectoryError", "Not a directory"⟩

def isADirectory : Exc := ⟨.osError, "IsADirectoryError", "Is a directory"⟩

def tooManyLinks : Exc := ⟨.notADirectory, "OSError", "Too many levels of symbolic links"⟩

/-!
## Members
-/

inductive Member (data : Type) where
  | file (content : data)
  | dir
  | link (hard : Bool) (linkname : String)

structure TarInfo (data : Type) where
  name : String
  offset : Nat
  /-- None of a device, a pipe and what is of an unknown type. -/
  member : Option (Member data)

variable {data : Type}

def TarInfo.path (m : TarInfo data) : List String := Path.names m.name

/-- `os.path.dirname`. -/
def dirname (path : String) : String :=
  let head := path.toList.reverse.dropWhile (· ≠ '/')
  if head.all (· = '/') then String.ofList head
  else String.ofList (head.dropWhile (· = '/')).reverse

/-- `_find_link_target`: a symbolic link's target is looked for in the whole archive, a hard
link's before the link. -/
def findLinkTarget (members : List (TarInfo data)) (m : TarInfo data) (hard : Bool)
    (linkname : String) : Option (TarInfo data) :=
  let named (name : String) (other : TarInfo data) : Bool :=
    PosixPath.normpath name = PosixPath.normpath other.name
  if hard then
    ((members.reverse.dropWhile (·.offset ≠ m.offset)).drop 1).find? (named linkname)
  else
    let parts := [dirname m.name, linkname].filter (· ≠ "")
    members.reverse.find? (named (PosixPath.joined parts))

/-!
## File operations
-/

section Operations

variable (budget : Nat)

/-- The kernel's lookup of a path in a tree that holds it: where it ends, with a link at the
end followed or not. -/
def lookup (t : Option (Node data)) (follow : Bool) :
    Nat -> List String -> List String -> Except Exc (List String)
  | 0, _, _ => .error tooManyLinks
  | _ + 1, here, [] => .ok here
  | budget + 1, here, name :: rest =>
      match at? here t with
      | none => .error noSuchFile
      | some (.dir _) =>
          if name = ".." then lookup t follow budget here.dropLast rest
          else
            match at? (here ++ [name]) t with
            | some (.link target) =>
                if follow = false ∧ rest = [] then .ok (here ++ [name])
                else lookup t follow budget (if Path.isAbs target then [] else here)
                  (Path.names target ++ rest)
            | _ => lookup t follow budget (here ++ [name]) rest
      | some _ => .error notADirectory

def foundAt (follow : Bool) (path : List String) (t : Option (Node data)) :
    Option (Node data) :=
  match lookup t follow budget [] path with
  | .ok place => at? place t
  | .error _ => none

/-- `os.path.exists`. -/
def pathExists (path : List String) (t : Option (Node data)) : Bool :=
  (foundAt budget true path t).isSome

def pathLexists (path : List String) (t : Option (Node data)) : Bool :=
  (foundAt budget false path t).isSome

def newEntry (n : Node data) (path : List String) (t : Option (Node data)) :
    Except Exc (Option (Node data)) := do
  let place ← lookup t false budget [] path
  if (at? place t).isSome then .error fileExists
  else .ok (alter (fun _ => some n) place t)

/-- `os.mkdir`. -/
def makeEntryDir (path : List String) (t : Option (Node data)) :
    Except Exc (Option (Node data)) :=
  newEntry budget (.dir []) path t

/-- `os.makedirs`. -/
def makedirs (path : List String) (t : Option (Node data)) :
    Except Exc (Option (Node data)) := do
  if pathExists budget path t then .error fileExists
  else
    let upper ← path.dropLast.inits.foldlM (fun t part =>
      if pathExists budget part t then .ok t else makeEntryDir budget part t) t
    makeEntryDir budget path upper

/-- `open` for writing, which follows a link, with what is written. -/
def writeFile (content : data) (path : List String) (t : Option (Node data)) :
    Except Exc (Option (Node data)) := do
  let place ← lookup t true budget [] path
  if isDir (at? place t) then .error isADirectory
  else .ok (alter (fun _ => some (.file content)) place t)

/-- `os.unlink`. -/
def removeFile (path : List String) (t : Option (Node data)) :
    Except Exc (Option (Node data)) := do
  let place ← lookup t false budget [] path
  match at? place t with
  | none => .error noSuchFile
  | some (.dir _) => .error isADirectory
  | some _ => .ok (alter (fun _ => none) place t)

/-- `os.link`, which does not follow a link either. -/
def hardLink (source path : List String) (t : Option (Node data)) :
    Except Exc (Option (Node data)) := do
  let place ← lookup t false budget [] source
  match at? place t with
  | none => .error noSuchFile
  | some (.dir _) => .error (osError "Operation not permitted")
  | some n => newEntry budget n path t

/-!
## The filter
-/

/-- `os.path.realpath` where names may be missing at the end, and nothing else may go
wrong. -/
def realPathMissing (t : Option (Node data)) :
    Nat -> List String -> List String -> Except Exc (List String)
  | 0, _, _ => .error tooManyLinks
  | _ + 1, here, [] => .ok here
  | budget + 1, here, name :: rest =>
      if name = ".." then realPathMissing t budget here.dropLast rest
      else
        match at? here t with
        | some (.file _) | some (.link _) => .error notADirectory
        | _ =>
            match at? (here ++ [name]) t with
            | some (.link target) =>
                realPathMissing t budget (if Path.isAbs target then [] else here)
                  (Path.names target ++ rest)
            | _ => realPathMissing t budget (here ++ [name]) rest

/-- Whether a path stays in the directory of the extraction, seen from the one above it. -/
def staysInside (path : List String) (t : Option (Node data)) : Except Exc Bool := do
  let above := t.map fun n => Node.dir [("", n)]
  let real ← realPathMissing above budget [""] path
  .ok (real.head? = some "")

def filterError (typeName text : String) : Exc := ⟨.filterError, typeName, text⟩

/-- `data_filter` of a member whose name is relative: what there is to extract. The texts of
its errors leave out where a path leads. -/
def dataFilter (m : TarInfo data) (t : Option (Node data)) : Except Exc (Member data) := do
  if (← staysInside budget m.path t) = false then
    .error (filterError "OutsideDestinationError"
      ("'" ++ m.name ++ "' would be extracted outside the destination"))
  else
    match m.member with
    | none =>
        .error (filterError "SpecialFileError" ("'" ++ m.name ++ "' is a special file"))
    | some (.link hard linkname) =>
        if Path.isAbs linkname then
          .error (filterError "AbsoluteLinkError"
            ("'" ++ m.name ++ "' is a link to an absolute path"))
        else
          let start := if hard then [] else Path.names (dirname m.name)
          if (← staysInside budget (start ++ Path.names linkname) t) = false then
            .error (filterError "LinkOutsideDestinationError"
              ("'" ++ m.name ++ "' would link outside the destination"))
          else .ok (.link hard (PosixPath.normpath linkname))
    | some entry => .ok entry

/-!
## Extraction
-/

def upperDirs (path : List String) (t : Option (Node data)) :
    Except Exc (Option (Node data)) :=
  if pathExists budget path.dropLast t then .ok t else makedirs budget path.dropLast t

/-- `makedir`, which takes a directory that is there. -/
def makeDirectory (path : List String) (t : Option (Node data)) :
    Except Exc (Option (Node data)) :=
  match makeEntryDir budget path t with
  | .ok t' => .ok t'
  | .error e =>
      if e.kind = .fileExists ∧ isDir (foundAt budget true path t) = true then .ok t
      else .error e

def replaceLink (linkname : String) (path : List String) (t : Option (Node data)) :
    Except Exc (Option (Node data)) := do
  let cleared ← if pathLexists budget path t then removeFile budget path t else .ok t
  newEntry budget (.link linkname) path cleared

def noLinkTarget : Exc :=
  ⟨.unsupported, "AttributeError", "'TarInfo' object has no attribute '_link_target'"⟩

def putEntry (entry : Member data) (path : List String) (t : Option (Node data)) :
    Except Exc (Option (Node data)) := do
  let t ← upperDirs budget path t
  match entry with
  | .file content => writeFile budget content path t
  | .dir => makeDirectory budget path t
  | .link false linkname => replaceLink budget linkname path t
  | .link true _ => .error noLinkTarget

def keyError (linkname : String) : Exc :=
  ⟨.exception, "KeyError", "\"linkname '" ++ linkname ++ "' not found\""⟩

/-- A hard link to what is there; where it is not, its target's member put there again. -/
def putHardLink (members : List (TarInfo data)) (m : TarInfo data) (linkname : String)
    (t : Option (Node data)) : Except Exc (Option (Node data)) := do
  let t ← upperDirs budget m.path t
  if pathExists budget (Path.names linkname) t then
    hardLink budget (Path.names linkname) m.path t
  else
    match findLinkTarget members m true linkname with
    | none => .error (keyError linkname)
    | some target => do
        let entry ← dataFilter budget target t
        putEntry budget entry m.path t

def extracted (members : List (TarInfo data)) (m : TarInfo data) (entry : Member data)
    (t : Option (Node data)) : Except Exc (Option (Node data)) :=
  match entry with
  | .link true linkname => putHardLink budget members m linkname t
  | entry => putEntry budget entry m.path t

def unpacked (members rest : List (TarInfo data)) (t : Option (Node data)) :
    Except Exc (Option (Node data)) :=
  rest.foldlM (fun t m => do
    let entry ← dataFilter budget m t
    extracted budget members m entry t) t

end Operations

end Sync
end MightyColab
