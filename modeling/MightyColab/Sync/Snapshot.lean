import MightyColab.Lib.Fallible
import MightyColab.Lib.Symlinks
import MightyColab.Sync.Destination
import MightyColab.Sync.Extract

/-!
# The archive of a sync

`_create_sync_archive` without Git: the local tree is copied into a snapshot, each link as the
way from its directory to what its text comes to on paper, and the snapshot is packed. A link
whose text leaves the tree, or that is absolute, is refused there. What is packed passes the
checks on the links that follow, those on the VM among them.
-/

namespace MightyColab
namespace Sync

open Lib
open Lib.Symlinks (Way)
open Node (at?)

/-- A local tree. A file without data stands for a device, a socket or a FIFO. -/
abbrev Local (data : Type) := Node (Option data)

variable {data : Type}

/-!
## The snapshot
-/

def escapes (linkParent : List String) : Exc :=
  valueError ("Symlink '/" ++ "/".intercalate linkParent ++ "' escapes the payload")

def lexicalRelativeToRoot (linkParent : List String) (linkTarget : String)
    (root : List String) : Except Exc (List String) :=
  if Path.isAbs linkTarget then .error (escapes linkParent)
  else
    let lexical := Path.resolve linkParent (Path.names linkTarget)
    if root <+: lexical then .ok (lexical.drop root.length) else .error (escapes linkParent)

/-- The text of a path that `os.path.relpath` gives. -/
def relText : List String -> String
  | [] => "."
  | first :: rest => PosixPath.joined (first :: rest)

mutual

/-- An entry of `_copy_snapshot_directory`, in the directory `dir` of the source. -/
def copyNode (excludeGit : Bool) (sourceRoot payloadRoot dir : List String) (name : String) :
    Local data -> Except Exc (Node data)
  | .link linkTarget => do
      let relative <- lexicalRelativeToRoot (sourceRoot ++ dir) linkTarget sourceRoot
      return .link (relText (relPath (payloadRoot ++ dir) (payloadRoot ++ relative)))
  | .dir entries => do
      let copied <- copyEntries excludeGit sourceRoot payloadRoot (dir ++ [name]) entries
      return .dir copied
  | .file (some d) => return .file d
  | .file none =>
      .error (valueError ("Unsupported local file type in sync payload: " ++ name))

/-- `_copy_snapshot_directory` -/
def copyEntries (excludeGit : Bool) (sourceRoot payloadRoot dir : List String) :
    List (String × Local data) -> Except Exc (List (String × Node data))
  | [] => return []
  | (name, n) :: rest =>
      if excludeGit = true ∧ name = ".git" then
        copyEntries excludeGit sourceRoot payloadRoot dir rest
      else do
        let copied <- copyNode excludeGit sourceRoot payloadRoot dir name n
        let others <- copyEntries excludeGit sourceRoot payloadRoot dir rest
        return (name, copied) :: others

end

def copyPayloadSnapshot (excludeGit : Bool) (source target : List String) :
    Local data -> Except Exc (Node data)
  | .dir entries => do
      let copied <- copyEntries excludeGit source target [] entries
      return .dir copied
  | .file (some d) => return .file d
  | .file none | .link _ =>
      .error (valueError ("Unsupported local file type for sync: /" ++ "/".intercalate source))

/-!
## The archive
-/

def placed : List String -> Node data -> Node data
  | [], n => n
  | name :: rest, n => .dir [(name, placed rest n)]

/-- `Path.resolve`, which before Python 3.13 raises where links lead in a circle. -/
def pathResolve (loopsRaise : Bool) (disk : Option (Node data)) (budget : Nat)
    (path : List String) : Except Exc (List String) :=
  if loopsRaise = true ∧ (joinRealPath disk budget [] [] path).2 = false then
    .error ⟨.exception, "RuntimeError",
      "Symlink loop from '/" ++ "/".intercalate (realPath disk budget path) ++ "'"⟩
  else .ok (realPath disk budget path)

def validateLink (loopsRaise : Bool) (budget : Nat) (root : List String)
    (disk : Option (Node data)) (l : List String × String) : Except Exc Unit :=
  if Path.isAbs l.2 then .error (escapes l.1)
  else do
    let resolved <- pathResolve loopsRaise disk budget (l.1.dropLast ++ Path.names l.2)
    if root <+: resolved then .ok ⟨⟩ else .error (escapes l.1)

def validatePayloadSymlinks (loopsRaise : Bool) (budget : Nat) (root : List String)
    (payload : Node data) : Except Exc Unit :=
  forM (links root payload) (validateLink loopsRaise budget root (some (placed root payload)))

mutual

/-- What `archive_filter` makes of the links; `here` is the way from the payload. -/
def archiveNode (archiveRoot here : List String) : Node data -> Except Exc (Node data)
  | .link text => do
      let relative <- lexicalRelativeToRoot (archiveRoot ++ here.dropLast) text archiveRoot
      return .link (relText (relPath ("payload" :: here.dropLast) ("payload" :: relative)))
  | .dir entries => do
      let archived <- archiveEntries archiveRoot here entries
      return .dir archived
  | .file d => return .file d

def archiveEntries (archiveRoot here : List String) :
    List (String × Node data) -> Except Exc (List (String × Node data))
  | [] => return []
  | (name, n) :: rest => do
      let archived <- archiveNode archiveRoot (here ++ [name]) n
      let others <- archiveEntries archiveRoot here rest
      return (name, archived) :: others

end

/-- `_create_sync_archive`: the payload that is packed. -/
def createSyncArchive (loopsRaise : Bool) (budget : Nat) (source payload : List String) :
    Option (Local data) -> Except Exc (Node data)
  | none =>
      .error (fileNotFound ("Local path '/" ++ "/".intercalate source ++ "' not found"))
  | some (.link _) => .error (valueError "The sync source itself cannot be a symlink")
  | some tree =>
      if ".git" ∈ source then
        .error (valueError "Default sync does not accept a Git metadata path")
      else do
        let copy <- copyPayloadSnapshot true source payload tree
        validatePayloadSymlinks loopsRaise budget payload copy
        archiveNode payload [] copy

/-!
## The texts of relative paths
-/

variable {p q rel names : List String} {name text : String}

/-- What a file system calls its entries. -/
def Segments (names : List String) : Prop := forall name, name ∈ names -> Path.Segment name

instance (names : List String) : Decidable (Segments names) :=
  inferInstanceAs (Decidable (forall name, name ∈ names -> Path.Segment name))

theorem relPath_append (front start path : List String) :
    relPath (front ++ start) (front ++ path) = relPath start path := by
  induction front with
  | nil => rfl
  | cons name front ih => rw [List.cons_append, List.cons_append, relPath, if_pos rfl, ih]

theorem relPath_way (start path : List String) : Way start path (relPath start path) := by
  induction start generalizing path with
  | nil => exact ⟨[], [], path, rfl, rfl, by cases path <;> rfl⟩
  | cons s start ih =>
      cases path with
      | nil => exact ⟨[], s :: start, [], rfl, rfl, rfl⟩
      | cons p path =>
          unfold relPath
          split
          · next heq =>
              rcases ih path with ⟨common, up, down, hstart, hpath, hway⟩
              refine ⟨s :: common, up, down, ?_, ?_, hway⟩
              · rw [hstart]
                rfl
              · rw [hpath, heq]
                rfl
          · exact ⟨[], s :: start, p :: path, rfl, rfl, rfl⟩

theorem mem_way {start path way : List String} (h : Way start path way)
    (hname : name ∈ way) : name = ".." ∨ name ∈ path := by
  rcases h with ⟨common, up, down, _, hpath, hway⟩
  rw [hway] at hname
  rcases List.mem_append.mp hname with hup | hdown
  · exact Or.inl (List.eq_of_mem_replicate hup)
  · rw [hpath]
    exact Or.inr (List.mem_append_right _ hdown)

theorem names_relText
    (h : forall name, name ∈ names -> name ≠ "" ∧ name ≠ "." ∧ '/' ∉ name.toList) :
    Path.names (relText names) = names ∧ Path.isAbs (relText names) = false := by
  cases names with
  | nil => decide
  | cons first rest =>
      have hsplit : PosixPath.split (PosixPath.joined (first :: rest)) = first :: rest :=
        PosixPath.split_joined (by simp) fun name hname => (h name hname).2.2
      constructor
      · change (PosixPath.split (PosixPath.joined (first :: rest))).filter _ = _
        rw [hsplit]
        refine List.filter_eq_self.mpr fun name hname => ?_
        have hboth := h name hname
        simp [hboth.1, hboth.2.1]
      · cases habs : Path.isAbs (relText (first :: rest)) with
        | false => rfl
        | true =>
            have hhead : (PosixPath.joined (first :: rest)).toList.head? = some '/' :=
              of_decide_eq_true habs
            rcases List.head?_eq_some_iff.mp hhead with ⟨more, hmore⟩
            have htext : PosixPath.joined (first :: rest) = "/" ++ String.ofList more := by
              rw [← String.toList_inj, hmore, String.toList_append, String.toList_ofList]
              simp
            rw [htext, PosixPath.split_slash] at hsplit
            exact absurd (List.cons.inj hsplit).left.symm (h first List.mem_cons_self).1

/-!
## The links of the snapshot
-/

mutual

/-- A tree of names as a file system has them, each of them once in its directory. -/
def Named : Node data -> Prop
  | .dir entries => NamedIn entries
  | .file _ | .link _ => True

def NamedIn : List (String × Node data) -> Prop
  | [] => True
  | (name, n) :: rest =>
      Path.Segment name ∧ name ∉ rest.map Prod.fst ∧ Named n ∧ NamedIn rest

end

/-- The text of a link in the directory `q`: the way to a place in the tree. -/
def Tame (q : List String) (text : String) : Prop :=
  exists rel, Segments rel ∧ text = relText (relPath q rel)

def TameLink (l : List String × String) : Prop :=
  exists q name, l.1 = q ++ [name] ∧ Tame q l.2

theorem lexical_ok {linkParent root : List String}
    (h : lexicalRelativeToRoot linkParent text root = .ok rel) :
    Path.isAbs text = false ∧ Path.resolve linkParent (Path.names text) = root ++ rel := by
  unfold lexicalRelativeToRoot at h
  split at h
  · cases h
  · next habs =>
      simp only at h
      split at h
      · next hprefix =>
          cases h
          exact ⟨Bool.eq_false_iff.mpr habs, (List.prefix_iff_eq_append.mp hprefix).symm⟩
      · cases h

theorem lexical_segments {root dir : List String} (hroot : Segments root) (hdir : Segments dir)
    (h : lexicalRelativeToRoot (root ++ dir) text root = .ok rel) : Segments rel := by
  have hhere : Segments (root ++ dir) := by
    intro other hother
    rcases List.mem_append.mp hother with hin | hin
    · exact hroot other hin
    · exact hdir other hin
  have hall : Segments (Path.resolve (root ++ dir) (Path.names text)) :=
    PosixPath.resolve_segments (fun _ => PosixPath.mem_names) hhere
  rw [(lexical_ok h).right] at hall
  exact fun name hname => hall name (List.mem_append_right _ hname)

theorem relText_way (hrel : Segments rel) (q : List String) :
    Path.isAbs (relText (relPath q rel)) = false ∧
      Way q rel (Path.names (relText (relPath q rel))) := by
  have hway := relPath_way q rel
  have hplain : forall name, name ∈ relPath q rel ->
      name ≠ "" ∧ name ≠ "." ∧ '/' ∉ name.toList := by
    intro name hname
    rcases mem_way hway hname with hup | hin
    · rw [hup]
      decide
    · have hsegment := hrel name hin
      exact ⟨hsegment.1, hsegment.2.1, hsegment.2.2.2⟩
  have hnames := names_relText hplain
  rw [hnames.left]
  exact ⟨hnames.right, hway⟩

theorem Tame.way {q : List String} (h : Tame q text) :
    Path.isAbs text = false ∧ exists rel, Segments rel ∧ Way q rel (Path.names text) := by
  rcases h with ⟨rel, hrel, htext⟩
  rw [htext]
  exact ⟨(relText_way hrel q).left, rel, hrel, (relText_way hrel q).right⟩

theorem Segments.plain (h : Segments rel) : ".." ∉ rel := fun hmem => (h _ hmem).2.2.1 rfl

theorem segments_concat {dir : List String} (hdir : Segments dir) (hname : Path.Segment name) :
    Segments (dir ++ [name]) := by
  intro other hother
  rcases List.mem_append.mp hother with hin | hlast
  · exact hdir other hin
  · rw [List.mem_singleton.mp hlast]
    exact hname

section Copy

variable {excludeGit : Bool} {source payload : List String}

theorem copyEntries_cons {dir : List String} {n : Local data} {rest : List (String × Local data)}
    {copied : List (String × Node data)}
    (h : copyEntries excludeGit source payload dir ((name, n) :: rest) = .ok copied) :
    excludeGit = true ∧ name = ".git" ∧
        copyEntries excludeGit source payload dir rest = .ok copied ∨
      ¬(excludeGit = true ∧ name = ".git") ∧ exists c others, copied = (name, c) :: others ∧
        copyNode excludeGit source payload dir name n = .ok c ∧
        copyEntries excludeGit source payload dir rest = .ok others := by
  unfold copyEntries at h
  split at h
  · next hgit => exact Or.inl ⟨hgit.left, hgit.right, h⟩
  · next hgit =>
      rcases Fallible.bind_ok h with ⟨c, hc, h⟩
      rcases Fallible.bind_ok h with ⟨others, hothers, h⟩
      cases h
      exact Or.inr ⟨hgit, c, others, rfl, hc, hothers⟩

mutual

theorem copyNode_tame (hsource : Segments source) {dir : List String} (hdir : Segments dir)
    {name : String} (hname : Path.Segment name) {copy : Node data} : {n : Local data} ->
    Named n -> copyNode excludeGit source payload dir name n = .ok copy ->
    Named copy ∧ forall l, l ∈ links (dir ++ [name]) copy -> TameLink l
  | .link text, _, h => by
      unfold copyNode at h
      rcases Fallible.bind_ok h with ⟨rel, hrel, h⟩
      cases h
      refine ⟨by unfold Named; trivial, fun l hl => ?_⟩
      unfold links at hl
      rw [List.mem_singleton.mp hl]
      exact ⟨dir, name, rfl, rel, lexical_segments hsource hdir hrel, by rw [relPath_append]⟩
  | .file (some d), _, h => by
      unfold copyNode at h
      cases h
      refine ⟨by unfold Named; trivial, fun l hl => ?_⟩
      unfold links at hl
      cases hl
  | .file none, _, h => by
      unfold copyNode at h
      cases h
  | .dir entries, hnamed, h => by
      unfold copyNode at h
      rcases Fallible.bind_ok h with ⟨copied, hcopied, h⟩
      cases h
      unfold Named at hnamed
      have hboth := copyEntries_tame hsource (segments_concat hdir hname) hnamed hcopied
      refine ⟨by unfold Named; exact hboth.left, fun l hl => ?_⟩
      unfold links at hl
      exact hboth.right.right l hl

theorem copyEntries_tame (hsource : Segments source) {dir : List String}
    (hdir : Segments dir) : {entries : List (String × Local data)} ->
    {copied : List (String × Node data)} -> NamedIn entries ->
    copyEntries excludeGit source payload dir entries = .ok copied ->
    NamedIn copied ∧ copied.map Prod.fst ⊆ entries.map Prod.fst ∧
      forall l, l ∈ linksIn dir copied -> TameLink l
  | [], _, _, h => by
      unfold copyEntries at h
      cases h
      refine ⟨by unfold NamedIn; trivial, List.Subset.refl _, fun l hl => ?_⟩
      unfold linksIn at hl
      cases hl
  | (name, n) :: rest, copied, hnamed, h => by
      unfold NamedIn at hnamed
      rcases hnamed with ⟨hname, hfresh, hn, hrest⟩
      rcases copyEntries_cons h with ⟨_, _, h⟩ | ⟨_, c, others, heq, hc, hothers⟩
      · have hall := copyEntries_tame hsource hdir hrest h
        exact ⟨hall.left, List.subset_cons_of_subset _ hall.right.left, hall.right.right⟩
      · have hone := copyNode_tame hsource hdir hname hn hc
        have hall := copyEntries_tame hsource hdir hrest hothers
        rw [heq]
        refine ⟨?_, ?_, fun l hl => ?_⟩
        · unfold NamedIn
          exact ⟨hname, fun hmem => hfresh (hall.right.left hmem), hone.left, hall.left⟩
        · exact List.cons_subset_cons _ hall.right.left
        · unfold linksIn at hl
          rcases List.mem_append.mp hl with hl | hl
          · exact hone.right l hl
          · exact hall.right.right l hl

end

theorem copyPayload_tame (hsource : Segments source) {tree : Local data} (hnamed : Named tree)
    {copy : Node data} (h : copyPayloadSnapshot excludeGit source payload tree = .ok copy) :
    Named copy ∧ forall l, l ∈ links [] copy -> TameLink l := by
  unfold copyPayloadSnapshot at h
  split at h
  · rcases Fallible.bind_ok h with ⟨copied, hcopied, h⟩
    cases h
    unfold Named at hnamed
    have hall := copyEntries_tame hsource (fun _ hmem => absurd hmem List.not_mem_nil) hnamed
      hcopied
    refine ⟨by unfold Named; exact hall.left, fun l hl => ?_⟩
    unfold links at hl
    exact hall.right.right l hl
  · cases h
    refine ⟨by unfold Named; trivial, fun l hl => ?_⟩
    unfold links at hl
    cases hl
  · cases h
  · cases h

end Copy

end Sync
end MightyColab
