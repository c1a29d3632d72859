import MightyColab.Lib.PosixPath
import MightyColab.Sync.Extract

/-!
# Where a sync may go

`_normalize_sync_destination`, which turns what the user names into a path below `/content`,
and the check that the extract script makes of that path again on the VM. Both work on text.
Whatever the first one lets through, the second one splits into the same names.
-/

namespace MightyColab
namespace Sync

open Lib
open PosixPath

/-!
## The two checks
-/

def notBelowContent : Exc := valueError "Remote path must name a destination below /content"

/-- The absolute path that is meant: one that names the content is not put below it. -/
def filesystemPath (raw : String) : String :=
  if Path.isAbs raw then normpath raw
  else if raw = "content" ∨ Text.startsWith raw "content/" = true then normpath ("/" ++ raw)
  else normpath ("/content/" ++ raw)

/-- `_normalize_sync_destination`: the path for the Contents API, and the one on the VM. -/
def normalizeSyncDestination (remotePath : String) : Except Exc (String × String) :=
  let raw := Text.strip remotePath
  if raw = "" ∨ raw = "." then .error notBelowContent
  else if filesystemPath raw = "/content" ∨
      Text.startsWith (filesystemPath raw) "/content/" = false then .error notBelowContent
  else .ok (lstrip (filesystemPath raw), filesystemPath raw)

/-- `os.path.relpath`. -/
def relativePath (cwd path start : String) : Except Exc String :=
  if path = "" then .error (valueError "no path specified")
  else
    let startList := (split (abspath cwd start)).filter (· ≠ "")
    let pathList := (split (abspath cwd path)).filter (· ≠ "")
    match relPath startList pathList with
    | [] => .ok "."
    | first :: rest => .ok (rest.foldl Path.join first)

/-- The script's check of its destination: the directories on the way, and the name. -/
def recheckDestination (cwd destination contentRoot : String) :
    Except Exc (List String × String) :=
  let destinationPath := abspath cwd destination
  match relativePath cwd destinationPath contentRoot with
  | .error e => .error e
  | .ok relative =>
      if relative = ".." ∨ Text.startsWith relative "../" = true then .error outsideContent
      else
        let parts := split relative
        let basename := parts.getLastD ""
        if basename ∈ ["", ".", ".."] then .error outsideContent
        else .ok (parts.dropLast, basename)

/-!
## Paths as text and as names
-/

theorem isAbs_slash (path : String) : Path.isAbs ("/" ++ path) = true := by
  rw [Path.isAbs, String.toList_append]
  rfl

theorem isAbs_normpath {path : String} (h : Path.isAbs path = true) :
    Path.isAbs (normpath path) = true := by
  rw [normpath_abs h]
  rcases initialSlashes_cases h with hone | htwo
  · rw [hone]
    exact isAbs_slash _
  · rw [htwo, Path.isAbs, String.toList_append]
    rfl

theorem target_normpath {path : String} (h : Path.isAbs path = true) :
    Lib.Path.target (normpath path) = Lib.Path.target path := by
  have hsegments := target_segments path
  have hnames : Path.names (normpath path) = Lib.Path.target path := by
    have hdots : Path.names (normpath path) =
        ((split (normpath path)).filter (· ≠ "")).filter (· ≠ ".") := by
      rw [List.filter_filter]
      apply List.filter_congr
      intro name _
      exact Bool.and_comm _ _
    rw [hdots, split_normpath h]
    apply List.filter_eq_self.mpr
    intro name hname
    simpa using (hsegments name hname).2.1
  have hup : ".." ∉ Lib.Path.target path := fun hin => (hsegments ".." hin).2.2.1 rfl
  rw [Lib.Path.target, hnames, Path.resolve_down hup, List.nil_append]

theorem isAbs_join {cwd path : String} (hcwd : Path.isAbs path = true ∨ Path.isAbs cwd = true) :
    Path.isAbs (if Path.isAbs path then path else Path.join cwd path) = true := by
  by_cases hpath : Path.isAbs path = true
  · rw [if_pos hpath]
    exact hpath
  · have habs := hcwd.resolve_left hpath
    rw [if_neg hpath, Path.join, if_neg hpath]
    have hhead : forall rest : String, Path.isAbs (cwd ++ rest) = true := by
      intro rest
      rw [Path.isAbs, decide_eq_true_eq] at habs ⊢
      rw [String.toList_append, List.head?_append, habs]
      rfl
    split
    · exact hhead path
    · rw [String.append_assoc]
      exact hhead _

theorem foldl_join {first : String} {rest : List String}
    (h : forall name, name ∈ first :: rest -> name ≠ "" ∧ '/' ∉ name.toList) :
    rest.foldl Path.join first = joined (first :: rest) := by
  -- a longer front does not matter, as long as it ends with a name
  have hgo : forall (rest : List String) (front last : String), last ≠ "" ∧ '/' ∉ last.toList ->
      (forall name, name ∈ rest -> name ≠ "" ∧ '/' ∉ name.toList) ->
      rest.foldl Path.join (front ++ last) = joined ((front ++ last) :: rest) := by
    intro rest
    induction rest with
    | nil =>
        intro front last _ _
        exact String.intercalate_singleton.symm
    | cons name rest ih =>
        intro front last hlast hrest
        have hname := hrest name List.mem_cons_self
        have habs : Path.isAbs name = false := by
          rw [Path.isAbs, decide_eq_false_iff_not]
          exact fun hhead => hname.right (List.mem_of_head? hhead)
        have hne : last.toList ≠ [] := fun hnil => hlast.left (String.toList_inj.mp hnil)
        have hend : ¬(front ++ last = "" ∨ (front ++ last).toList.getLast? = some '/') := by
          rintro (hempty | hslash)
          · have hlist := congrArg String.toList hempty
            rw [String.toList_append] at hlist
            exact hne (List.append_eq_nil_iff.mp hlist).right
          · rw [String.toList_append, List.getLast?_append_of_ne_nil _ hne] at hslash
            exact hlast.right (List.mem_of_getLast? hslash)
        have hjoin : Path.join (front ++ last) name = front ++ last ++ "/" ++ name := by
          rw [Path.join, habs, if_neg (by simp), if_neg hend]
        rw [List.foldl_cons, hjoin, ih _ name hname
          (fun other hother => hrest other (List.mem_cons_of_mem _ hother)), joined, joined,
          String.intercalate_cons_append, String.intercalate_cons_cons]
  have hfirst := hgo rest "" first (h first List.mem_cons_self)
    (fun name hname => h name (List.mem_cons_of_mem _ hname))
  rw [String.empty_append] at hfirst
  exact hfirst

/-!
## The check on the VM, by names
-/

theorem mem_relPath {start path : List String} {name : String} (h : name ∈ relPath start path) :
    name = ".." ∨ name ∈ path := by
  induction start generalizing path with
  | nil =>
      have hpath : relPath [] path = path := by
        cases path <;> rfl
      rw [hpath] at h
      exact Or.inr h
  | cons s start ih =>
      cases path with
      | nil =>
          have hrel : relPath (s :: start) [] = List.replicate (start.length + 1) ".." :=
            List.append_nil _
          rw [hrel] at h
          exact Or.inl (List.eq_of_mem_replicate h)
      | cons p path =>
          by_cases hs : s = p
          · have hrel : relPath (s :: start) (p :: path) = relPath start path := if_pos hs
            rw [hrel] at h
            exact (ih h).imp id (List.mem_cons_of_mem _)
          · have hrel : relPath (s :: start) (p :: path) =
                List.replicate (start.length + 1) ".." ++ p :: path := if_neg hs
            rw [hrel] at h
            exact (List.mem_append.mp h).imp List.eq_of_mem_replicate id

theorem relativePath_names {cwd path start : String} (hpath : Path.isAbs path = true)
    (hstart : Path.isAbs start = true) :
    relativePath cwd path start =
      .ok (match relPath (Lib.Path.target start) (Lib.Path.target path) with
      | [] => "."
      | first :: rest => joined (first :: rest)) := by
  have hne : path ≠ "" := by
    rintro rfl
    cases hpath
  have hsplit : forall text : String, Path.isAbs text = true ->
      (split (abspath cwd text)).filter (· ≠ "") = Lib.Path.target text := by
    intro text habs
    rw [abspath, if_pos habs, split_normpath habs]
  simp only [relativePath]
  rw [if_neg hne, hsplit start hstart, hsplit path hpath]
  cases hrel : relPath (Lib.Path.target start) (Lib.Path.target path) with
  | nil => rfl
  | cons first rest =>
      refine congrArg Except.ok (foldl_join fun name hname => ?_)
      rw [← hrel] at hname
      rcases mem_relPath hname with rfl | hin
      · decide
      · have hsegment := target_segments path name hin
        exact ⟨hsegment.1, hsegment.2.2.2⟩

theorem target_joined {cwd path : String} {here : List String}
    (h : Path.isAbs path = true ∨ Path.isAbs cwd = true ∧ Lib.Path.target cwd = here) :
    Lib.Path.target (if Path.isAbs path then path else Path.join cwd path) =
      Path.resolve (if Path.isAbs path then [] else here) (Path.names path) := by
  by_cases hpath : Path.isAbs path = true
  · rw [if_pos hpath, if_pos hpath]
    rfl
  · rcases h.resolve_left hpath with ⟨_, rfl⟩
    rw [if_neg hpath, if_neg hpath, Lib.Path.target, Path.names_join (Bool.eq_false_iff.mpr hpath),
      Path.resolve, List.foldl_append]
    rfl

theorem joined_up {first : String} {rest : List String}
    (h : forall name, name ∈ first :: rest -> '/' ∉ name.toList) :
    (joined (first :: rest) = ".." ∨ Text.startsWith (joined (first :: rest)) "../" = true) <->
      first = ".." := by
  have hsplit := split_joined (List.cons_ne_nil first rest) h
  constructor
  · rintro (hup | hbelow)
    · rw [hup] at hsplit
      exact (List.cons.inj hsplit).left.symm
    · rcases Text.startsWith_iff.mp hbelow with ⟨more, hmore⟩
      have hlist : (joined (first :: rest)).toList = "..".toList ++ '/' :: more.toList := by
        rw [hmore, String.toList_append]
        rfl
      have hparts : split (joined (first :: rest)) = ".." :: split more := by
        rw [split, hlist, List.splitOn_append_cons_self]
        rfl
      exact (List.cons.inj (hsplit.symm.trans hparts)).left
  · rintro rfl
    cases rest with
    | nil => exact Or.inl String.intercalate_singleton
    | cons name rest =>
        refine Or.inr (Text.startsWith_iff.mpr ⟨joined (name :: rest), ?_⟩)
        exact String.intercalate_cons_cons

/-- The check made on text comes to what the script is modelled to do with the names. -/
theorem recheckDestination_names {a : Args} {cwd contentRoot : String}
    (hcwd : Path.isAbs a.destination = true ∨ Path.isAbs cwd = true ∧ Lib.Path.target cwd = a.cwd)
    (hroot : Path.isAbs contentRoot = true)
    (htarget : Lib.Path.target contentRoot = a.contentRoot) :
    recheckDestination cwd a.destination contentRoot = destinationParts a := by
  have habs : Path.isAbs (abspath cwd a.destination) = true :=
    isAbs_normpath (isAbs_join (hcwd.imp id And.left))
  have hpath : Lib.Path.target (abspath cwd a.destination) = a.absPath a.destination := by
    rw [abspath, target_normpath (isAbs_join (hcwd.imp id And.left)), target_joined hcwd]
    rfl
  have hparts : relPath (Lib.Path.target contentRoot)
      (Lib.Path.target (abspath cwd a.destination)) = a.parts := by
    rw [htarget, hpath]
    rfl
  have hnames : forall name, name ∈ a.parts -> name ≠ "" ∧ name ≠ "." ∧ '/' ∉ name.toList := by
    intro name hname
    rw [← hparts] at hname
    rcases mem_relPath hname with rfl | hin
    · decide
    · have hsegment := target_segments _ name hin
      exact ⟨hsegment.1, hsegment.2.1, hsegment.2.2.2⟩
  simp only [recheckDestination, destinationParts, relativePath_names habs hroot, hparts]
  cases hrel : a.parts with
  | nil => rfl
  | cons first rest =>
      rw [hrel] at hnames
      have hslash := fun name hname => (hnames name hname).2.2
      simp only [joined_up hslash, split_joined (List.cons_ne_nil first rest) hslash,
        List.head?_cons, Option.some.injEq]
      by_cases hup : first = ".."
      · rw [if_pos hup, if_pos hup]
      · rw [if_neg hup, if_neg hup]
        have hlast := List.getLast?_eq_some_getLast (List.cons_ne_nil first rest)
        have hgetLast : (first :: rest).getLastD "" =
            (first :: rest).getLast (List.cons_ne_nil first rest) := by
          rw [List.getLastD_eq_getLast?, hlast]
          rfl
        have hname := hnames _ (List.getLast_mem (List.cons_ne_nil first rest))
        rw [hgetLast, hlast]
        simp [hname.1, hname.2.1]

/-!
## The destinations that are let through
-/

/-- The two paths lead to one place, by these names below the content. -/
structure Below (relative absolute : String) (parts : List String) : Prop where
  strictly : parts ≠ []
  segments : forall name, name ∈ parts -> Path.Segment name
  relative_eq : relative = joined ("content" :: parts)
  absolute_eq : absolute = "/" ++ joined ("content" :: parts)
  contents : Lib.Path.target relative = "content" :: parts
  filesystem : Lib.Path.target absolute = "content" :: parts

theorem content_segments {parts : List String}
    (h : forall name, name ∈ parts -> Path.Segment name) :
    forall name, name ∈ "content" :: parts -> Path.Segment name := by
  intro name hname
  rcases List.mem_cons.mp hname with rfl | hin
  · decide
  · exact h name hin

theorem target_of_segments {names : List String} (hne : names ≠ [])
    (h : forall name, name ∈ names -> Path.Segment name) :
    Lib.Path.target (joined names) = names := by
  have hnames : Path.names (joined names) = names := by
    have hsplit : Path.names (joined names) =
        (split (joined names)).filter fun name => name ≠ "" && name ≠ "." := rfl
    rw [hsplit, split_joined hne fun name hname => (h name hname).2.2.2]
    apply List.filter_eq_self.mpr
    intro name hname
    simpa using ⟨(h name hname).1, (h name hname).2.1⟩
  have hup : ".." ∉ names := fun hin => (h ".." hin).2.2.1 rfl
  rw [Lib.Path.target, hnames, Path.resolve_down hup, List.nil_append]

theorem below_of_segments {parts : List String} (hne : parts ≠ [])
    (h : forall name, name ∈ parts -> Path.Segment name) :
    Below (joined ("content" :: parts)) ("/" ++ joined ("content" :: parts)) parts where
  strictly := hne
  segments := h
  relative_eq := rfl
  absolute_eq := rfl
  contents := target_of_segments (List.cons_ne_nil _ _) (content_segments h)
  filesystem := by
    have hnames : Path.names ("/" ++ joined ("content" :: parts)) =
        Path.names (joined ("content" :: parts)) := by
      have hslash := Path.names_slash "" (joined ("content" :: parts))
      rwa [String.empty_append, Path.names_empty, List.nil_append] at hslash
    rw [Lib.Path.target, hnames]
    exact target_of_segments (List.cons_ne_nil _ _) (content_segments h)

theorem normpath_below {path : String} (habs : Path.isAbs path = true)
    (h : Text.startsWith (normpath path) "/content/" = true) :
    exists parts, Below (lstrip (normpath path)) (normpath path) parts := by
  rcases Text.startsWith_iff.mp h with ⟨rest, hrest⟩
  have hsegments := target_segments path
  have htext := (normpath_abs habs).symm.trans hrest
  have hchars := congrArg String.toList htext
  rw [String.toList_append, String.toList_append] at hchars
  rcases initialSlashes_cases habs with hone | htwo
  · rw [hone] at hchars
    have hjoined : (joined (Lib.Path.target path)).toList =
        "content".toList ++ '/' :: rest.toList :=
      (List.cons.inj hchars).right
    have hne : Lib.Path.target path ≠ [] := by
      intro hnil
      rw [hnil] at hjoined
      cases hjoined
    have hparts : Lib.Path.target path = "content" :: split rest := by
      have hsplit := split_joined hne fun name hname => (hsegments name hname).2.2.2
      rw [← hsplit, split, hjoined, List.splitOn_append_cons_self]
      rfl
    have hrestne : split rest ≠ [] := by
      rw [split, Ne, List.map_eq_nil_iff]
      exact List.splitOn_ne_nil _ _
    have hnormal : normpath path = "/" ++ joined ("content" :: split rest) := by
      rw [normpath_abs habs, hone, hparts]
    have hstrip : lstrip (normpath path) = joined ("content" :: split rest) := by
      rw [hnormal, ← hparts, lstrip, String.toList_append, hjoined]
      exact String.toList_inj.mp (by rw [String.toList_ofList, hjoined]; rfl)
    refine ⟨split rest, ?_⟩
    rw [hstrip, hnormal]
    refine below_of_segments hrestne fun name hname => hsegments name ?_
    rw [hparts]
    exact List.mem_cons_of_mem _ hname
  · rw [htwo] at hchars
    exact absurd (List.cons.inj (List.cons.inj hchars).right).left (by decide)

theorem filesystemPath_abs (raw : String) :
    exists path, Path.isAbs path = true ∧ filesystemPath raw = normpath path := by
  by_cases habs : Path.isAbs raw = true
  · exact ⟨raw, habs, if_pos habs⟩
  · rw [filesystemPath, if_neg habs]
    split
    · exact ⟨_, isAbs_slash raw, rfl⟩
    · exact ⟨_, isAbs_slash ("content/" ++ raw), rfl⟩

/-- Every destination is refused, or comes to one place strictly below the content. -/
theorem normalizeSyncDestination_cases (remotePath : String) :
    normalizeSyncDestination remotePath = .error notBelowContent ∨
      exists relative absolute parts,
        normalizeSyncDestination remotePath = .ok (relative, absolute) ∧
          Below relative absolute parts := by
  rcases filesystemPath_abs (Text.strip remotePath) with ⟨path, habs, hpath⟩
  by_cases hempty : Text.strip remotePath = "" ∨ Text.strip remotePath = "."
  · exact Or.inl (if_pos hempty)
  · by_cases houtside : filesystemPath (Text.strip remotePath) = "/content" ∨
        Text.startsWith (filesystemPath (Text.strip remotePath)) "/content/" = false
    · left
      simp only [normalizeSyncDestination, if_neg hempty, if_pos houtside]
    · right
      have hbelow : Text.startsWith (normpath path) "/content/" = true := by
        rw [← hpath]
        simpa using fun h => houtside (Or.inr h)
      obtain ⟨parts, hparts⟩ := normpath_below habs hbelow
      rw [← hpath] at hparts
      refine ⟨_, _, parts, ?_, hparts⟩
      simp only [normalizeSyncDestination, if_neg hempty, if_neg houtside]

/-- The check on the VM lets through what lies below the content, and splits it into its
names. -/
theorem recheckDestination_below {relative absolute : String} {parts : List String}
    (h : Below relative absolute parts) (cwd : String) :
    recheckDestination cwd absolute "/content" =
      .ok (parts.dropLast, parts.getLast h.strictly) := by
  let a : Args := { archivePath := "", destination := absolute, operationId := "" }
  have habs : Path.isAbs absolute = true := by
    rw [h.absolute_eq]
    exact isAbs_slash _
  have hparts : a.parts = parts := by
    have hpath : a.absPath a.destination = Lib.Path.target absolute := by
      rw [Args.absPath, if_pos habs]
      rfl
    rw [Args.parts, hpath, h.filesystem]
    cases parts <;> rfl
  have hcontent : Lib.Path.target "/content" = ["content"] := by decide
  have hnames : recheckDestination cwd a.destination "/content" = destinationParts a :=
    recheckDestination_names (Or.inl habs) rfl hcontent
  have hhead : parts.head? ≠ some ".." := fun hhead =>
    (h.segments ".." (List.mem_of_head? hhead)).2.2.1 rfl
  have hlast : parts.getLast h.strictly ≠ ".." :=
    (h.segments _ (List.getLast_mem h.strictly)).2.2.1
  rw [hnames, destinationParts, hparts, if_neg hhead, List.getLast?_eq_some_getLast h.strictly]
  exact if_neg hlast

/-- Every destination is refused, or comes to one place strictly below the content, for both
of the APIs and for the check on the VM. -/
theorem destinations_confined (remotePath cwd : String) :
    match normalizeSyncDestination remotePath with
    | .error e => e = notBelowContent
    | .ok (relative, absolute) =>
        exists directories basename,
          Below relative absolute (directories ++ [basename]) ∧
            recheckDestination cwd absolute "/content" = .ok (directories, basename) := by
  rcases normalizeSyncDestination_cases remotePath with
    hrefused | ⟨relative, absolute, parts, hfound, hbelow⟩
  · rw [hrefused]
  · rw [hfound]
    show exists directories basename,
      Below relative absolute (directories ++ [basename]) ∧
        recheckDestination cwd absolute "/content" = .ok (directories, basename)
    refine ⟨parts.dropLast, parts.getLast hbelow.strictly, ?_,
      recheckDestination_below hbelow cwd⟩
    rw [List.dropLast_append_getLast]
    exact hbelow

end Sync
end MightyColab
