import Mathlib.Data.List.Basic

/-!
# POSIX paths

A path as its names, resolved without symbolic links: what it leads to from a directory is
again a list of names, from the root. The root is its own parent.
-/

namespace MightyColab
namespace Lib
namespace Path

/-- The names of a path. Empty ones and `.` lead nowhere. -/
def names (path : String) : List String :=
  ((path.toList.splitOn '/').map String.ofList).filter fun name =>
    name ≠ "" && name ≠ "."

def isAbs (path : String) : Bool := path.toList.head? = some '/'

/-- `os.path.join`. -/
def join (dir path : String) : String :=
  if isAbs path then path
  else if dir = "" ∨ dir.toList.getLast? = some '/' then dir ++ path
  else dir ++ "/" ++ path

def enter (here : List String) (name : String) : List String :=
  if name = ".." then here.dropLast else here ++ [name]

def resolve (start : List String) (path : List String) : List String :=
  path.foldl enter start

def walk (isDir : List String -> Bool) (here : List String) :
    List String -> Option (List String)
  | [] => some here
  | name :: rest => if isDir here then walk isDir (enter here name) rest else none

def target (path : String) : List String := resolve [] (names path)

/-- One name that is neither `.` nor `..`. -/
def Segment (name : String) : Prop :=
  name ≠ "" ∧ name ≠ "." ∧ name ≠ ".." ∧ '/' ∉ name.toList

instance (name : String) : Decidable (Segment name) :=
  inferInstanceAs (Decidable (name ≠ "" ∧ name ≠ "." ∧ name ≠ ".." ∧ '/' ∉ name.toList))

/-!
## Names
-/

theorem names_slash (a b : String) : names (a ++ "/" ++ b) = names a ++ names b := by
  have hslash : (a ++ "/" ++ b).toList = a.toList ++ '/' :: b.toList := by
    rw [String.toList_append, String.toList_append]
    simp
  rw [names, hslash, List.splitOn_append_cons_self]
  simp [names]

@[simp] theorem names_empty : names "" = [] := by
  simp [names]

theorem names_segment {name : String} (h : Segment name) : names name = [name] := by
  rcases h with ⟨hempty, hdot, _, hslash⟩
  rw [names, List.splitOn_eq_singleton hslash]
  simp [String.ofList_toList, hempty, hdot]

theorem names_trailing {dir : String} (h : dir.toList.getLast? = some '/') (path : String) :
    names (dir ++ path) = names dir ++ names path := by
  rcases List.getLast?_eq_some_iff.mp h with ⟨front, hfront⟩
  have hdir : dir = String.ofList front ++ "/" := by
    rw [← String.toList_inj]
    simpa [String.toList_append] using hfront
  have hnames : names (String.ofList front ++ "/") = names (String.ofList front) := by
    have hempty := names_slash (String.ofList front) ""
    simpa using hempty
  rw [hdir, names_slash, hnames]

theorem names_join {dir path : String} (h : isAbs path = false) :
    names (join dir path) = names dir ++ names path := by
  simp only [join, h, Bool.false_eq_true, if_false]
  split
  · next hend =>
      rcases hend with hempty | hslash
      · rw [hempty]
        simp
      · exact names_trailing hslash path
  · exact names_slash dir path

/-!
## Resolution
-/

@[simp] theorem resolve_nil (start : List String) : resolve start [] = start := rfl

theorem resolve_down {path : List String} (h : ".." ∉ path) (start : List String) :
    resolve start path = start ++ path := by
  induction path generalizing start with
  | nil => simp
  | cons name rest ih =>
      have hrest : ".." ∉ rest := List.not_mem_of_not_mem_cons h
      have henter : enter start name = start ++ [name] :=
        if_neg (Ne.symm (List.ne_of_not_mem_cons h))
      rw [resolve, List.foldl_cons, henter, ← resolve, ih hrest]
      simp

end Path
end Lib
end MightyColab
