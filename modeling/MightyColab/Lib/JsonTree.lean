import MightyColab.Lib.Fallible
import MightyColab.Lib.Json

/-!
# The strings of a document

Every string of a document with the key that it stands under: that of its field, and for
an item of a list that of the list. A document is changed string by string; what a change
does to the whole follows from what it does to the strings.
-/

namespace MightyColab
namespace Lib
namespace Json

mutual

/-- The document with `f` of its key in place of each string. -/
def mapLeaves (f : Option String -> String -> Json) (key : Option String) : Json -> Json
  | str s => f key s
  | arr items => arr (mapItems f key items)
  | obj fields => obj (mapFields f fields)
  | null => null
  | bool b => bool b
  | int i => int i
  | float value text => float value text

def mapItems (f : Option String -> String -> Json) (key : Option String) :
    List Json -> List Json
  | [] => []
  | j :: rest => mapLeaves f key j :: mapItems f key rest

def mapFields (f : Option String -> String -> Json) :
    List (String × Json) -> List (String × Json)
  | [] => []
  | (name, j) :: rest => (name, mapLeaves f (some name) j) :: mapFields f rest

end

def mapStr (f : Option String -> String -> String) (key : Option String) (j : Json) : Json :=
  mapLeaves (fun key s => str (f key s)) key j

mutual

def leaves (key : Option String) : Json -> List (Option String × String)
  | str s => [(key, s)]
  | arr items => leavesItems key items
  | obj fields => leavesFields fields
  | null => []
  | bool _ => []
  | int _ => []
  | float _ _ => []

def leavesItems (key : Option String) : List Json -> List (Option String × String)
  | [] => []
  | j :: rest => leaves key j ++ leavesItems key rest

def leavesFields : List (String × Json) -> List (Option String × String)
  | [] => []
  | (name, j) :: rest => leaves (some name) j ++ leavesFields rest

end

mutual

/-- The document with `f` of each string, up to the first that `f` refuses. -/
def traverse {error : Type} (f : Option String -> String -> Except error String)
    (key : Option String) : Json -> Except error Json
  | str s => (f key s).map str
  | arr items => (traverseItems f key items).map arr
  | obj fields => (traverseFields f fields).map obj
  | null => .ok null
  | bool b => .ok (bool b)
  | int i => .ok (int i)
  | float value text => .ok (float value text)

def traverseItems {error : Type} (f : Option String -> String -> Except error String)
    (key : Option String) : List Json -> Except error (List Json)
  | [] => .ok []
  | j :: rest => do
      let first ← traverse f key j
      let more ← traverseItems f key rest
      return first :: more

def traverseFields {error : Type} (f : Option String -> String -> Except error String) :
    List (String × Json) -> Except error (List (String × Json))
  | [] => .ok []
  | (name, j) :: rest => do
      let first ← traverse f (some name) j
      let more ← traverseFields f rest
      return (name, first) :: more

end

variable {f g : Option String -> String -> String} {error : Type}
variable {h : Option String -> String -> Except error String}

/-!
## Changed strings
-/

mutual

theorem leaves_mapStr (key : Option String) : forall j : Json,
    leaves key (mapStr f key j) = (leaves key j).map fun leaf => (leaf.1, f leaf.1 leaf.2)
  | str _ => rfl
  | arr items => leavesItems_mapStr key items
  | obj fields => leavesFields_mapStr fields
  | null => rfl
  | bool _ => rfl
  | int _ => rfl
  | float _ _ => rfl

theorem leavesItems_mapStr (key : Option String) : forall items : List Json,
    leavesItems key (mapItems (fun key s => str (f key s)) key items) =
      (leavesItems key items).map fun leaf => (leaf.1, f leaf.1 leaf.2)
  | [] => rfl
  | j :: rest => by
      rw [mapItems, leavesItems, leavesItems, List.map_append, ← leavesItems_mapStr key rest,
        ← leaves_mapStr key j]
      rfl

theorem leavesFields_mapStr : forall fields : List (String × Json),
    leavesFields (mapFields (fun key s => str (f key s)) fields) =
      (leavesFields fields).map fun leaf => (leaf.1, f leaf.1 leaf.2)
  | [] => rfl
  | (name, j) :: rest => by
      rw [mapFields, leavesFields, leavesFields, List.map_append, ← leavesFields_mapStr rest,
        ← leaves_mapStr (some name) j]
      rfl

end

mutual

theorem mapStr_congr (key : Option String) : forall j : Json,
    (forall leaf, leaf ∈ leaves key j -> f leaf.1 leaf.2 = g leaf.1 leaf.2) ->
      mapStr f key j = mapStr g key j
  | str s, hsame => congrArg str (hsame (key, s) (List.mem_singleton_self _))
  | arr items, hsame => congrArg arr (mapItems_congr key items hsame)
  | obj fields, hsame => congrArg obj (mapFields_congr fields hsame)
  | null, _ => rfl
  | bool _, _ => rfl
  | int _, _ => rfl
  | float _ _, _ => rfl

theorem mapItems_congr (key : Option String) : forall items : List Json,
    (forall leaf, leaf ∈ leavesItems key items -> f leaf.1 leaf.2 = g leaf.1 leaf.2) ->
      mapItems (fun key s => str (f key s)) key items =
        mapItems (fun key s => str (g key s)) key items
  | [], _ => rfl
  | j :: rest, hsame => by
      have hfirst := mapStr_congr key j fun leaf hleaf =>
        hsame leaf (List.mem_append_left _ hleaf)
      have hrest := mapItems_congr key rest fun leaf hleaf =>
        hsame leaf (List.mem_append_right _ hleaf)
      rw [mapItems, mapItems, hrest]
      exact congrArg (· :: _) hfirst

theorem mapFields_congr : forall fields : List (String × Json),
    (forall leaf, leaf ∈ leavesFields fields -> f leaf.1 leaf.2 = g leaf.1 leaf.2) ->
      mapFields (fun key s => str (f key s)) fields =
        mapFields (fun key s => str (g key s)) fields
  | [], _ => rfl
  | (name, j) :: rest, hsame => by
      have hfirst := mapStr_congr (some name) j fun leaf hleaf =>
        hsame leaf (List.mem_append_left _ hleaf)
      have hrest := mapFields_congr rest fun leaf hleaf =>
        hsame leaf (List.mem_append_right _ hleaf)
      rw [mapFields, mapFields, hrest]
      exact congrArg (fun j => (name, j) :: _) hfirst

end

mutual

theorem mapStr_id (key : Option String) : forall j : Json, mapStr (fun _ s => s) key j = j
  | str _ => rfl
  | arr items => congrArg arr (mapItems_id key items)
  | obj fields => congrArg obj (mapFields_id fields)
  | null => rfl
  | bool _ => rfl
  | int _ => rfl
  | float _ _ => rfl

theorem mapItems_id (key : Option String) : forall items : List Json,
    mapItems (fun _ s => str s) key items = items
  | [] => rfl
  | j :: rest => by
      rw [mapItems, mapItems_id key rest]
      exact congrArg (· :: rest) (mapStr_id key j)

theorem mapFields_id : forall fields : List (String × Json),
    mapFields (fun _ s => str s) fields = fields
  | [] => rfl
  | (name, j) :: rest => by
      rw [mapFields, mapFields_id rest]
      exact congrArg (fun j => (name, j) :: rest) (mapStr_id (some name) j)

end

theorem mapStr_eq_self {key : Option String} {j : Json} :
    mapStr f key j = j <-> forall leaf, leaf ∈ leaves key j -> f leaf.1 leaf.2 = leaf.2 := by
  constructor
  · intro hsame leaf hleaf
    have hmap := @leaves_mapStr f key j
    rw [hsame] at hmap
    have hid : (leaves key j).map (fun leaf => (leaf.1, f leaf.1 leaf.2)) =
        (leaves key j).map id := by
      rw [List.map_id]
      exact hmap.symm
    have hleaf := List.map_inj_left.mp hid leaf hleaf
    exact congrArg Prod.snd hleaf
  · intro hsame
    rw [@mapStr_congr f (fun _ s => s) key j hsame, mapStr_id]

/-!
## Refused strings
-/

/-- What `h` makes of a string, which stays where `h` refuses it. -/
def accepted (h : Option String -> String -> Except error String) (key : Option String)
    (s : String) : String :=
  match h key s with
  | .ok value => value
  | .error _ => s

mutual

theorem traverse_of_leaves (key : Option String) : forall j : Json,
    (forall leaf, leaf ∈ leaves key j -> exists value, h leaf.1 leaf.2 = .ok value) ->
      traverse h key j = .ok (mapStr (accepted h) key j)
  | str s, hok => by
      rcases hok (key, s) (List.mem_singleton_self _) with ⟨value, hvalue⟩
      have haccepted : accepted h key s = value := by rw [accepted, hvalue]
      rw [traverse, hvalue, mapStr, mapLeaves, haccepted]
      rfl
  | arr items, hok => by
      rw [traverse, traverseItems_of_leaves key items hok]
      rfl
  | obj fields, hok => by
      rw [traverse, traverseFields_of_leaves fields hok]
      rfl
  | null, _ => rfl
  | bool _, _ => rfl
  | int _, _ => rfl
  | float _ _, _ => rfl

theorem traverseItems_of_leaves (key : Option String) : forall items : List Json,
    (forall leaf, leaf ∈ leavesItems key items -> exists value, h leaf.1 leaf.2 = .ok value) ->
      traverseItems h key items =
        .ok (mapItems (fun key s => str (accepted h key s)) key items)
  | [], _ => rfl
  | j :: rest, hok => by
      rw [traverseItems, traverse_of_leaves key j fun leaf hleaf =>
        hok leaf (List.mem_append_left _ hleaf), traverseItems_of_leaves key rest
        fun leaf hleaf => hok leaf (List.mem_append_right _ hleaf)]
      rfl

theorem traverseFields_of_leaves : forall fields : List (String × Json),
    (forall leaf, leaf ∈ leavesFields fields -> exists value, h leaf.1 leaf.2 = .ok value) ->
      traverseFields h fields =
        .ok (mapFields (fun key s => str (accepted h key s)) fields)
  | [], _ => rfl
  | (name, j) :: rest, hok => by
      rw [traverseFields, traverse_of_leaves (some name) j fun leaf hleaf =>
        hok leaf (List.mem_append_left _ hleaf), traverseFields_of_leaves rest
        fun leaf hleaf => hok leaf (List.mem_append_right _ hleaf)]
      rfl

end

mutual

theorem leaves_of_traverse (key : Option String) : forall (j result : Json),
    traverse h key j = .ok result ->
      forall leaf, leaf ∈ leaves key j -> exists value, h leaf.1 leaf.2 = .ok value
  | str s, result, hok => by
      intro leaf hleaf
      rcases Fallible.map_ok hok with ⟨value, hvalue, _⟩
      rw [List.mem_singleton.mp hleaf]
      exact ⟨value, hvalue⟩
  | arr items, result, hok => by
      rcases Fallible.map_ok hok with ⟨values, hvalues, _⟩
      exact leavesItems_of_traverse key items values hvalues
  | obj fields, result, hok => by
      rcases Fallible.map_ok hok with ⟨values, hvalues, _⟩
      exact leavesFields_of_traverse fields values hvalues
  | null, _, _ => by intro leaf hleaf; cases hleaf
  | bool _, _, _ => by intro leaf hleaf; cases hleaf
  | int _, _, _ => by intro leaf hleaf; cases hleaf
  | float _ _, _, _ => by intro leaf hleaf; cases hleaf

theorem leavesItems_of_traverse (key : Option String) : forall items result : List Json,
    traverseItems h key items = .ok result ->
      forall leaf, leaf ∈ leavesItems key items -> exists value, h leaf.1 leaf.2 = .ok value
  | [], _, _ => by intro leaf hleaf; cases hleaf
  | j :: rest, result, hok => by
      rcases Fallible.bind_ok hok with ⟨first, hfirst, hok⟩
      rcases Fallible.bind_ok hok with ⟨more, hmore, _⟩
      intro leaf hleaf
      rcases List.mem_append.mp hleaf with hin | hin
      · exact leaves_of_traverse key j first hfirst leaf hin
      · exact leavesItems_of_traverse key rest more hmore leaf hin

theorem leavesFields_of_traverse : forall fields result : List (String × Json),
    traverseFields h fields = .ok result ->
      forall leaf, leaf ∈ leavesFields fields -> exists value, h leaf.1 leaf.2 = .ok value
  | [], _, _ => by intro leaf hleaf; cases hleaf
  | (name, j) :: rest, result, hok => by
      rcases Fallible.bind_ok hok with ⟨first, hfirst, hok⟩
      rcases Fallible.bind_ok hok with ⟨more, hmore, _⟩
      intro leaf hleaf
      rcases List.mem_append.mp hleaf with hin | hin
      · exact leaves_of_traverse (some name) j first hfirst leaf hin
      · exact leavesFields_of_traverse rest more hmore leaf hin

end

/-- A document passes exactly when each of its strings does, and is changed in them alone. -/
theorem traverse_eq_ok {key : Option String} {j result : Json} :
    traverse h key j = .ok result <->
      (forall leaf, leaf ∈ leaves key j -> exists value, h leaf.1 leaf.2 = .ok value) ∧
        result = mapStr (accepted h) key j := by
  constructor
  · intro hok
    have hleaves := leaves_of_traverse key j result hok
    rw [traverse_of_leaves key j hleaves] at hok
    exact ⟨hleaves, (Except.ok.inj hok).symm⟩
  · rintro ⟨hleaves, rfl⟩
    exact traverse_of_leaves key j hleaves

theorem asStr_strItems (items : List (String × String)) :
    (items.map fun (k, v) => (k, str v)).filterMap (fun (k, v) => v.asStr?.map (k, ·)) =
      items := by
  induction items with
  | nil => rfl
  | cons item rest ih =>
      rw [List.map_cons, List.filterMap_cons, ih]
      rfl

end Json
end Lib
end MightyColab
