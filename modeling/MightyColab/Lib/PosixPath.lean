import MightyColab.Lib.Path
import MightyColab.Lib.Text

/-!
# `posixpath` on text

`normpath` and `abspath` as they work on the text of a path, and what they come to on its
names: of an absolute path nothing but the names that it leads to is left.
-/

namespace MightyColab
namespace Lib
namespace PosixPath

/-- `path.split("/")`. -/
def split (path : String) : List String := (path.toList.splitOn '/').map String.ofList

/-- `"/".join(names)`. -/
def joined (names : List String) : String := "/".intercalate names

/-- `path.lstrip("/")`. -/
def lstrip (path : String) : String := String.ofList (path.toList.dropWhile (· = '/'))

/-- The slashes that a normalised path begins with: two of them stay two, more do not. -/
def initialSlashes (path : String) : String :=
  if Text.startsWith path "//" && !Text.startsWith path "///" then "//"
  else if Path.isAbs path then "/"
  else ""

/-- One component in the loop of `normpath`. -/
def addComp (rooted : Bool) (comps : List String) (comp : String) : List String :=
  if comp = "" ∨ comp = "." then comps
  else if comp ≠ ".." ∨ (rooted = false ∧ comps = []) ∨ comps.getLast? = some ".." then
    comps ++ [comp]
  else comps.dropLast

def normpath (path : String) : String :=
  if path = "" then "."
  else
    let comps := (split path).foldl (addComp (Path.isAbs path)) []
    let text := initialSlashes path ++ joined comps
    if text = "" then "." else text

def abspath (cwd path : String) : String :=
  normpath (if Path.isAbs path then path else Path.join cwd path)

/-!
## Splitting and joining
-/

theorem toList_joined (names : List String) :
    (joined names).toList = ['/'].intercalate (names.map String.toList) := by
  rw [joined, String.toList_intercalate]
  rfl

theorem map_ofList_toList (names : List String) :
    (names.map String.toList).map String.ofList = names := by
  simp

theorem split_joined {names : List String} (hne : names ≠ [])
    (h : forall name, name ∈ names -> '/' ∉ name.toList) : split (joined names) = names := by
  have hsplit : (['/'].intercalate (names.map String.toList)).splitOn '/' =
      names.map String.toList := by
    apply List.splitOn_intercalate
    · intro text htext
      rcases List.mem_map.mp htext with ⟨name, hname, rfl⟩
      exact h name hname
    · simpa using hne
  rw [split, toList_joined, hsplit, map_ofList_toList]

theorem not_mem_splitOn {sep : Char} {text part : List Char} (h : part ∈ text.splitOn sep) :
    sep ∉ part := by
  induction text generalizing part with
  | nil =>
      have hpart : part = [] := by simpa using h
      rw [hpart]
      exact List.not_mem_nil
  | cons c rest ih =>
      rw [List.splitOn_cons_eq_if_modifyHead] at h
      by_cases hc : c = sep
      · rw [if_pos (beq_iff_eq.mpr hc)] at h
        rcases List.mem_cons.mp h with rfl | hrest
        · exact List.not_mem_nil
        · exact ih hrest
      · rw [if_neg (fun heq => hc (beq_iff_eq.mp heq))] at h
        cases hsplit : rest.splitOn sep with
        | nil => exact absurd hsplit (List.splitOn_ne_nil _ _)
        | cons first more =>
            rw [hsplit, List.modifyHead_cons] at h
            rw [hsplit] at ih
            rcases List.mem_cons.mp h with rfl | hmore
            · intro hmem
              rcases List.mem_cons.mp hmem with heq | hfirst
              · exact hc heq.symm
              · exact ih List.mem_cons_self hfirst
            · exact ih (List.mem_cons_of_mem _ hmore)

theorem mem_split {path name : String} (h : name ∈ split path) : '/' ∉ name.toList := by
  rcases List.mem_map.mp h with ⟨part, hpart, rfl⟩
  rw [String.toList_ofList]
  exact not_mem_splitOn hpart

theorem split_slash (path : String) : split ("/" ++ path) = "" :: split path := by
  have htext : ("/" ++ path).toList = [] ++ '/' :: path.toList := by
    rw [String.toList_append]
    rfl
  rw [split, htext, List.splitOn_append_cons_self]
  rfl

/-!
## Normalised paths
-/

theorem resolve_segments {path here : List String}
    (hpath : forall name, name ∈ path -> name ≠ "" ∧ name ≠ "." ∧ '/' ∉ name.toList)
    (hhere : forall name, name ∈ here -> Path.Segment name) :
    forall name, name ∈ Path.resolve here path -> Path.Segment name := by
  induction path generalizing here with
  | nil => exact hhere
  | cons first rest ih =>
      rw [Path.resolve, List.foldl_cons, ← Path.resolve]
      apply ih (fun name hname => hpath name (List.mem_cons_of_mem _ hname))
      intro name hname
      by_cases hup : first = ".."
      · rw [Path.enter, if_pos hup] at hname
        exact hhere name (List.dropLast_subset _ hname)
      · rw [Path.enter, if_neg hup] at hname
        rcases List.mem_append.mp hname with hin | hlast
        · exact hhere name hin
        · rw [List.mem_singleton.mp hlast]
          rcases hpath first List.mem_cons_self with ⟨hempty, hdot, hslash⟩
          exact ⟨hempty, hdot, hup, hslash⟩

theorem mem_names {path name : String} (h : name ∈ Path.names path) :
    name ≠ "" ∧ name ≠ "." ∧ '/' ∉ name.toList := by
  rcases List.mem_filter.mp h with ⟨hsplit, hname⟩
  have hboth : name ≠ "" ∧ name ≠ "." := by simpa using hname
  exact ⟨hboth.left, hboth.right, mem_split hsplit⟩

theorem target_segments (path : String) :
    forall name, name ∈ Path.target path -> Path.Segment name :=
  resolve_segments (fun _ => mem_names) fun _ h => nomatch h

theorem foldl_addComp {comps here : List String} (h : ".." ∉ here) :
    comps.foldl (addComp true) here =
      Path.resolve here (comps.filter fun name => name ≠ "" && name ≠ ".") := by
  induction comps generalizing here with
  | nil => rfl
  | cons comp rest ih =>
      rw [List.foldl_cons]
      by_cases hskip : comp = "" ∨ comp = "."
      · have hadd : addComp true here comp = here := if_pos hskip
        rw [hadd, ih h, List.filter_cons_of_neg (by simpa using fun hne => hskip.resolve_left hne)]
      · have hkept : (decide (comp ≠ "") && decide (comp ≠ ".")) = true := by simpa using hskip
        have hadd : addComp true here comp = Path.enter here comp := by
          have hlast : here.getLast? ≠ some ".." :=
            fun hlast => h (List.mem_of_mem_getLast? hlast)
          simp [addComp, Path.enter, hskip, hlast]
        have henter : ".." ∉ Path.enter here comp := by
          rw [Path.enter]
          split
          · exact fun hin => h (List.dropLast_subset _ hin)
          · next hup => simpa using ⟨h, Ne.symm hup⟩
        rw [hadd, ih henter, List.filter_cons_of_pos (by exact hkept)]
        rfl

theorem initialSlashes_cases {path : String} (h : Path.isAbs path = true) :
    initialSlashes path = "/" ∨ initialSlashes path = "//" := by
  rw [initialSlashes, if_pos h]
  split
  · exact Or.inr rfl
  · exact Or.inl rfl

theorem normpath_abs {path : String} (h : Path.isAbs path = true) :
    normpath path = initialSlashes path ++ joined (Path.target path) := by
  have hpath : path ≠ "" := by
    rintro rfl
    cases h
  have hcomps : (split path).foldl (addComp (Path.isAbs path)) [] = Path.target path := by
    rw [h, foldl_addComp List.not_mem_nil]
    rfl
  have htext : forall rest, initialSlashes path ++ rest ≠ "" := by
    intro rest heq
    have hlist := congrArg String.toList heq
    rw [String.toList_append] at hlist
    rcases initialSlashes_cases h with hone | htwo
    · rw [hone] at hlist
      cases hlist
    · rw [htwo] at hlist
      cases hlist
  simp only [normpath]
  rw [if_neg hpath, hcomps, if_neg (htext _)]

theorem split_normpath {path : String} (h : Path.isAbs path = true) :
    (split (normpath path)).filter (· ≠ "") = Path.target path := by
  have hnames : (split (joined (Path.target path))).filter (· ≠ "") = Path.target path := by
    by_cases hroot : Path.target path = []
    · rw [hroot]
      rfl
    · rw [split_joined hroot fun name hname => (target_segments path name hname).2.2.2]
      apply List.filter_eq_self.mpr
      intro name hname
      simpa using (target_segments path name hname).1
  have hempty : forall comps : List String,
      ("" :: comps).filter (· ≠ "") = comps.filter (· ≠ "") := fun comps => by simp
  rw [normpath_abs h]
  rcases initialSlashes_cases h with hone | htwo
  · rw [hone, split_slash, hempty, hnames]
  · have htext : "//" ++ joined (Path.target path) = "/" ++ ("/" ++ joined (Path.target path)) := by
      rw [← String.append_assoc]
      rfl
    rw [htwo, htext, split_slash, split_slash, hempty, hempty, hnames]

end PosixPath
end Lib
end MightyColab
