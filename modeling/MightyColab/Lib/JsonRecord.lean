import Mathlib.Data.List.Nodup
import Mathlib.Logic.Equiv.Defs
import MightyColab.Lib.Fallible
import MightyColab.Lib.Json

/-!
# Records that keep what they do not know

Data models over JSON documents: how a value of each type is written, how a document is
read as one, and records that carry along the fields they do not define. A dump writes null
for the numbers that JSON does not have, so that what is written reads back exactly where
there are none of these.
-/

namespace MightyColab
namespace Lib
namespace Json

/-!
## What a dump writes
-/

mutual

/-- The document as it is dumped: null for `NaN` and the infinities. -/
def dumped : Json -> Json
  | float value text =>
      match value with
      | some q => float (some q) text
      | none => null
  | arr items => arr (dumpedItems items)
  | obj fields => obj (dumpedFields fields)
  | null => null
  | bool b => bool b
  | int i => int i
  | str s => str s

def dumpedItems : List Json -> List Json
  | [] => []
  | j :: rest => dumped j :: dumpedItems rest

def dumpedFields : List (String × Json) -> List (String × Json)
  | [] => []
  | (name, j) :: rest => (name, dumped j) :: dumpedFields rest

end

mutual

/-- No number of the document is `NaN` or infinite. -/
def finite : Json -> Bool
  | float value _ => value.isSome
  | arr items => finiteItems items
  | obj fields => finiteFields fields
  | null | bool _ | int _ | str _ => true

def finiteItems : List Json -> Bool
  | [] => true
  | j :: rest => finite j && finiteItems rest

def finiteFields : List (String × Json) -> Bool
  | [] => true
  | (_, j) :: rest => finite j && finiteFields rest

end

theorem dumpedItems_eq (items : List Json) : dumpedItems items = items.map dumped := by
  induction items with
  | nil => rfl
  | cons j rest ih => rw [dumpedItems, ih, List.map_cons]

theorem dumpedFields_eq (fields : Fields) :
    dumpedFields fields = fields.map fun f => (f.1, f.2.dumped) := by
  induction fields with
  | nil => rfl
  | cons f rest ih => rw [dumpedFields, ih, List.map_cons]

theorem finiteItems_iff (items : List Json) :
    finiteItems items = true <-> forall j, j ∈ items -> j.finite = true := by
  induction items with
  | nil => exact ⟨fun _ j h => absurd h List.not_mem_nil, fun _ => rfl⟩
  | cons j rest ih => rw [finiteItems, Bool.and_eq_true, ih, List.forall_mem_cons]

theorem finiteFields_iff (fields : Fields) :
    finiteFields fields = true <-> forall f, f ∈ fields -> f.2.finite = true := by
  induction fields with
  | nil => exact ⟨fun _ j h => absurd h List.not_mem_nil, fun _ => rfl⟩
  | cons f rest ih => rw [finiteFields, Bool.and_eq_true, ih, List.forall_mem_cons]

theorem finite_arr (items : List Json) :
    (arr items).finite = true <-> forall j, j ∈ items -> j.finite = true := by
  rw [finite, finiteItems_iff]

theorem finite_obj (fields : Fields) :
    (obj fields).finite = true <-> forall f, f ∈ fields -> f.2.finite = true := by
  rw [finite, finiteFields_iff]

mutual

theorem dumped_eq_iff : forall j : Json, j.dumped = j <-> j.finite = true
  | null | bool _ | int _ | str _ => ⟨fun _ => rfl, fun _ => rfl⟩
  | float (some _) _ => ⟨fun _ => rfl, fun _ => rfl⟩
  | float none _ => ⟨fun h => (by cases h), fun h => (by cases h)⟩
  | arr items => by
      rw [dumped, finite, ← dumpedItems_eq_iff items]
      exact ⟨fun h => by injection h, congrArg arr⟩
  | obj fields => by
      rw [dumped, finite, ← dumpedFields_eq_iff fields]
      exact ⟨fun h => by injection h, congrArg obj⟩

theorem dumpedItems_eq_iff : forall items : List Json,
    dumpedItems items = items <-> finiteItems items = true
  | [] => ⟨fun _ => rfl, fun _ => rfl⟩
  | j :: rest => by
      rw [dumpedItems, finiteItems, Bool.and_eq_true, ← dumped_eq_iff j,
        ← dumpedItems_eq_iff rest, List.cons.injEq]

theorem dumpedFields_eq_iff : forall fields : List (String × Json),
    dumpedFields fields = fields <-> finiteFields fields = true
  | [] => ⟨fun _ => rfl, fun _ => rfl⟩
  | (name, j) :: rest => by
      rw [dumpedFields, finiteFields, Bool.and_eq_true, ← dumped_eq_iff j,
        ← dumpedFields_eq_iff rest, List.cons.injEq, Prod.mk.injEq]
      exact and_congr_left fun _ => and_iff_right rfl

end

end Json

/-!
## Codecs
-/

structure Codec (value : Type) where
  write : value -> Json
  read : Json -> Option value

namespace Codec

variable {value first second : Type}

def any : Codec Json := ⟨id, some⟩

def str : Codec String := ⟨.str, Json.asStr?⟩

def enum (text : value -> String) (ofText : String -> Option value) : Codec value where
  write a := .str (text a)
  read j := j.asStr?.bind ofText

def nullable (c : Codec value) : Codec (Option value) where
  write
    | none => .null
    | some a => c.write a
  read
    | .null => some none
    | j => (c.read j).map some

def list (c : Codec value) : Codec (List value) where
  write items := .arr (items.map c.write)
  read
    | .arr items => items.mapM c.read
    | _ => none

def dict (c : Codec value) : Codec (List (String × value)) where
  write fields := .obj (fields.map fun f => (f.1, c.write f.2))
  read
    | .obj fields => fields.mapM fun f => (c.read f.2).map (f.1, ·)
    | _ => none

def map (e : first ≃ second) (c : Codec first) : Codec second where
  write b := c.write (e.symm b)
  read j := (c.read j).map e

/-!
## Where a written value is finite
-/

/-- Every number that is written of the value is finite. -/
def FiniteAt (c : Codec value) (a : value) : Prop := (c.write a).finite = true

@[simp] theorem finiteAt_any (j : Json) : any.FiniteAt j <-> j.finite = true := Iff.rfl

@[simp] theorem finiteAt_str (s : String) : str.FiniteAt s := rfl

@[simp] theorem finiteAt_enum (text : value -> String) (ofText : String -> Option value)
    (a : value) : (enum text ofText).FiniteAt a := rfl

@[simp] theorem finiteAt_nullable (c : Codec value) (a : Option value) :
    c.nullable.FiniteAt a <-> forall b, a = some b -> c.FiniteAt b := by
  cases a with
  | none => exact ⟨fun _ b hb => (by cases hb), fun _ => rfl⟩
  | some b => exact ⟨fun h b' hb => Option.some.inj hb ▸ h, fun h => h b rfl⟩

@[simp] theorem finiteAt_list (c : Codec value) (items : List value) :
    c.list.FiniteAt items <-> forall a, a ∈ items -> c.FiniteAt a := by
  rw [FiniteAt, list, Json.finite_arr, List.forall_mem_map]
  rfl

@[simp] theorem finiteAt_dict (c : Codec value) (fields : List (String × value)) :
    c.dict.FiniteAt fields <-> forall f, f ∈ fields -> c.FiniteAt f.2 := by
  rw [FiniteAt, dict, Json.finite_obj, List.forall_mem_map]
  rfl

@[simp] theorem finiteAt_map (c : Codec first) (e : first ≃ second) (b : second) :
    (c.map e).FiniteAt b <-> c.FiniteAt (e.symm b) := Iff.rfl

/-!
## What is dumped reads back
-/

/-- What is dumped of a proper value reads back as it exactly where it is finite. -/
def Faithful (c : Codec value) (proper : value -> Prop) : Prop :=
  forall a, proper a -> (c.read (c.write a).dumped = some a <-> c.FiniteAt a)

theorem Faithful.mono {c : Codec value} {proper proper' : value -> Prop}
    (h : c.Faithful proper) (hle : forall a, proper' a -> proper a) : c.Faithful proper' :=
  fun a ha => h a (hle a ha)

theorem str_faithful : str.Faithful fun _ => True :=
  fun _ _ => ⟨fun _ => rfl, fun _ => rfl⟩

theorem enum_faithful {text : value -> String} {ofText : String -> Option value}
    (h : forall a, ofText (text a) = some a) :
    (enum text ofText).Faithful fun _ => True :=
  fun a _ => ⟨fun _ => rfl, fun _ => h a⟩

def NeverNull (c : Codec value) : Prop := forall a, c.write a ≠ .null

theorem nullable_read {c : Codec value} {j : Json} (h : j ≠ .null) :
    c.nullable.read j = (c.read j).map some := by
  cases j with
  | null => exact absurd rfl h
  | _ => rfl

theorem nullable_read_some {c : Codec value} {j : Json} {a : Option value}
    (h : c.nullable.read j = some a) :
    (j = .null ∧ a = none) ∨ exists b, a = some b ∧ c.read j = some b := by
  cases j with
  | null =>
      cases h
      exact Or.inl ⟨rfl, rfl⟩
  | _ =>
      rcases Option.map_eq_some_iff.mp h with ⟨b, hread, rfl⟩
      exact Or.inr ⟨b, rfl, hread⟩

theorem nullable_faithful {c : Codec value} {proper : value -> Prop}
    (h : c.Faithful proper) (hnull : c.NeverNull) :
    c.nullable.Faithful fun a => forall b, a = some b -> proper b := by
  intro a ha
  cases a with
  | none => exact ⟨fun _ => rfl, fun _ => rfl⟩
  | some a =>
      change c.nullable.read (c.write a).dumped = _ <-> c.FiniteAt a
      rw [← h a (ha a rfl)]
      by_cases hdump : (c.write a).dumped = .null
      · -- Only what is not finite is dumped as null here, and null reads as no value.
        have hinfinite : ¬c.read (c.write a).dumped = some a := by
          rw [h a (ha a rfl), FiniteAt, ← Json.dumped_eq_iff, hdump]
          exact fun heq => hnull a heq.symm
        refine ⟨fun hread => ?_, fun hread => absurd hread hinfinite⟩
        rw [hdump] at hread
        cases hread
      · rw [nullable_read hdump, Option.map_eq_some_iff]
        exact ⟨fun ⟨b, hread, heq⟩ => Option.some.inj heq ▸ hread, fun hread => ⟨a, hread, rfl⟩⟩

theorem list_read_mem {c : Codec value} {j : Json} {items : List value} {a : value}
    (h : c.list.read j = some items) (ha : a ∈ items) : exists item, c.read item = some a := by
  cases j with
  | arr documents =>
      change List.mapM c.read documents = some items at h
      rw [Fallible.mapM_some_iff] at h
      induction h with
      | nil => cases ha
      | cons hitem _ ih =>
          rcases List.mem_cons.mp ha with rfl | ha
          · exact ⟨_, hitem⟩
          · exact ih ha
  | _ => cases h

theorem list_faithful {c : Codec value} {proper : value -> Prop} (h : c.Faithful proper) :
    c.list.Faithful fun items => forall a, a ∈ items -> proper a := by
  intro items hitems
  have hdump : (c.list.write items).dumped =
      .arr (items.map fun a => (c.write a).dumped) := by
    rw [list, Json.dumped, Json.dumpedItems_eq, List.map_map]
    rfl
  rw [hdump, finiteAt_list]
  change List.mapM c.read _ = some items <-> _
  rw [Fallible.mapM_some_iff, List.forall₂_map_left_iff, List.forall₂_same]
  exact forall₂_congr fun a ha => h a (hitems a ha)

theorem dict_faithful {c : Codec value} {proper : value -> Prop} (h : c.Faithful proper) :
    c.dict.Faithful fun fields => forall f, f ∈ fields -> proper f.2 := by
  intro fields hfields
  have hdump : (c.dict.write fields).dumped =
      .obj (fields.map fun f => (f.1, (c.write f.2).dumped)) := by
    rw [dict, Json.dumped, Json.dumpedFields_eq, List.map_map]
    rfl
  rw [hdump, finiteAt_dict]
  change List.mapM (fun f : String × Json => (c.read f.2).map (f.1, ·)) _ = some fields <-> _
  rw [Fallible.mapM_some_iff, List.forall₂_map_left_iff, List.forall₂_same]
  refine forall₂_congr fun f hf => ?_
  rw [← h f.2 (hfields f hf), Option.map_eq_some_iff]
  constructor
  · rintro ⟨a, hread, heq⟩
    rw [hread, ← heq]
  · intro hread
    exact ⟨f.2, hread, rfl⟩

theorem map_faithful {c : Codec first} {proper : first -> Prop} (h : c.Faithful proper)
    (e : first ≃ second) : (c.map e).Faithful fun b => proper (e.symm b) := by
  intro b hb
  change (c.read (c.write (e.symm b)).dumped).map e = some b <-> c.FiniteAt (e.symm b)
  rw [← h (e.symm b) hb, Option.map_eq_some_iff]
  constructor
  · rintro ⟨a, hread, rfl⟩
    rw [Equiv.symm_apply_apply] at *
    exact hread
  · intro hread
    exact ⟨e.symm b, hread, e.apply_symm_apply b⟩

end Codec

/-!
## Records
-/

/-- The fields that a record defines: how each is written, if it is not left out, and how a
value is read from a look-up of fields. -/
structure Shape (value : Type) where
  names : List String
  write : value -> List (String × Option Json)
  read : (String -> Option Json) -> Option value

namespace Shape

variable {value first second : Type}

/-- Every number of the fields that are written is finite. -/
def FiniteAt (s : Shape value) (a : value) : Prop :=
  forall f, f ∈ s.write a -> forall j, f.2 = some j -> j.finite = true

structure Faithful (s : Shape value) (proper : value -> Prop) : Prop where
  named : forall a, (s.write a).map (·.1) = s.names
  /-- Looked up in what was dumped, a proper value reads back exactly where it is finite. -/
  back : forall a get, proper a ->
    (forall f, f ∈ s.write a -> get f.1 = f.2.map Json.dumped) ->
      (s.read get = some a <-> s.FiniteAt a)

def field (name : String) (default : Option value) (leftOut : value -> Bool)
    (c : Codec value) : Shape value where
  names := [name]
  write a := [(name, if leftOut a then none else some (c.write a))]
  read get :=
    match get name with
    | none => default
    | some j => c.read j

theorem field_read_none {get : String -> Option Json} {name : String} {default : Option value}
    {leftOut : value -> Bool} {c : Codec value} (h : get name = none) :
    (field name default leftOut c).read get = default := by
  simp only [field, h]

theorem field_read_some {get : String -> Option Json} {name : String} {default : Option value}
    {leftOut : value -> Bool} {c : Codec value} {j : Json} (h : get name = some j) :
    (field name default leftOut c).read get = c.read j := by
  simp only [field, h]

def required (name : String) (c : Codec value) : Shape value :=
  field name none (fun _ => false) c

def optional (name : String) (default : value) (c : Codec value) : Shape value :=
  field name (some default) (fun _ => false) c

def and (s : Shape first) (t : Shape second) : Shape (first × second) where
  names := s.names ++ t.names
  write a := s.write a.1 ++ t.write a.2
  read get := (s.read get).bind fun a => (t.read get).map fun b => (a, b)

@[simp] theorem finiteAt_field (name : String) (default : Option value)
    (leftOut : value -> Bool) (c : Codec value) (a : value) :
    (field name default leftOut c).FiniteAt a <-> leftOut a = true ∨ c.FiniteAt a := by
  rw [FiniteAt, field, List.forall_mem_singleton]
  cases leftOut a with
  | true => exact ⟨fun _ => Or.inl rfl, fun _ _ hj => (by cases hj)⟩
  | false =>
      constructor
      · intro hall
        exact Or.inr (hall _ rfl)
      · rintro (hleft | hfinite) j hj
        · cases hleft
        · exact Option.some.inj hj ▸ hfinite

@[simp] theorem finiteAt_required (name : String) (c : Codec value) (a : value) :
    (required name c).FiniteAt a <-> c.FiniteAt a := by
  rw [required, finiteAt_field]
  exact or_iff_right Bool.false_ne_true

@[simp] theorem finiteAt_optional (name : String) (default : value) (c : Codec value)
    (a : value) : (optional name default c).FiniteAt a <-> c.FiniteAt a := by
  rw [optional, finiteAt_field]
  exact or_iff_right Bool.false_ne_true

@[simp] theorem finiteAt_and (s : Shape first) (t : Shape second) (a : first × second) :
    (s.and t).FiniteAt a <-> s.FiniteAt a.1 ∧ t.FiniteAt a.2 :=
  List.forall_mem_append

theorem field_faithful {name : String} {default : Option value} {leftOut : value -> Bool}
    {c : Codec value} {proper : value -> Prop} (h : c.Faithful proper)
    (hleftOut : forall a, leftOut a = true -> default = some a) :
    (field name default leftOut c).Faithful proper where
  named _ := rfl
  back a get ha hget := by
    have hget := hget _ List.mem_cons_self
    change (match get name with
      | none => default
      | some j => c.read j) = some a <-> _
    rw [hget, finiteAt_field]
    cases hleft : leftOut a with
    | true => exact ⟨fun _ => Or.inl rfl, fun _ => hleftOut a hleft⟩
    | false =>
        change c.read (c.write a).dumped = some a <-> _
        rw [h a ha]
        exact (or_iff_right Bool.false_ne_true).symm

theorem required_faithful {name : String} {c : Codec value} {proper : value -> Prop}
    (h : c.Faithful proper) : (required name c).Faithful proper :=
  field_faithful h fun _ hleft => by cases hleft

theorem optional_faithful {name : String} {default : value} {c : Codec value}
    {proper : value -> Prop} (h : c.Faithful proper) :
    (optional name default c).Faithful proper :=
  field_faithful h fun _ hleft => by cases hleft

theorem and_read {s : Shape first} {t : Shape second} {get : String -> Option Json}
    {a : first × second} :
    (s.and t).read get = some a <-> s.read get = some a.1 ∧ t.read get = some a.2 := by
  change (s.read get).bind _ = some a <-> _
  rw [Option.bind_eq_some_iff]
  constructor
  · rintro ⟨x, hx, h⟩
    rcases Option.map_eq_some_iff.mp h with ⟨y, hy, rfl⟩
    exact ⟨hx, hy⟩
  · rintro ⟨hx, hy⟩
    exact ⟨a.1, hx, by rw [hy]; rfl⟩

theorem and_faithful {s : Shape first} {t : Shape second} {proper : first -> Prop}
    {proper' : second -> Prop} (hs : s.Faithful proper) (ht : t.Faithful proper') :
    (s.and t).Faithful fun a => proper a.1 ∧ proper' a.2 where
  named a := by
    rw [and, List.map_append, hs.named, ht.named]
  back a get ha hget := by
    have hget := List.forall_mem_append.mp hget
    rw [and_read, hs.back a.1 get ha.1 hget.1, ht.back a.2 get ha.2 hget.2, finiteAt_and]

/-- The fields of a document that a record does not define. -/
def unknown (names : List String) (fields : Json.Fields) : Json.Fields :=
  fields.filter fun f => !names.contains f.1

def fields (s : Shape value) (a : value) (extra : Json.Fields) : Json.Fields :=
  ((s.write a).filterMap fun f => f.2.map (f.1, ·)) ++ extra

def openRecord (s : Shape value) : Codec (value × Json.Fields) where
  write a := .obj (s.fields a.1 a.2)
  read
    | .obj fields => (s.read (List.lookup · fields)).map fun a => (a, unknown s.names fields)
    | _ => none

@[simp] theorem finiteAt_openRecord (s : Shape value) (a : value × Json.Fields) :
    s.openRecord.FiniteAt a <->
      s.FiniteAt a.1 ∧ forall f, f ∈ a.2 -> f.2.finite = true := by
  rw [Codec.FiniteAt, openRecord, Json.finite_obj, fields, List.forall_mem_append]
  refine and_congr_left fun _ => ?_
  constructor
  · intro hall f hf j hj
    exact hall (f.1, j) (List.mem_filterMap.mpr ⟨f, hf, by rw [hj]; rfl⟩)
  · intro hall f hf
    rcases List.mem_filterMap.mp hf with ⟨g, hg, hsome⟩
    rcases Option.map_eq_some_iff.mp hsome with ⟨j, hj, rfl⟩
    exact hall g hg j hj

/-- A record's own fields have other names than those that it defines. -/
def Apart (s : Shape value) (extra : Json.Fields) : Prop :=
  forall f, f ∈ extra -> f.1 ∉ s.names

variable {s : Shape value} {proper : value -> Prop}

theorem lookup_none {name : String} {fields : Json.Fields}
    (h : forall f, f ∈ fields -> f.1 ≠ name) : fields.lookup name = none := by
  rw [List.lookup_eq_none_iff]
  intro f hf
  exact bne_iff_ne.mpr fun heq => h f hf heq.symm

theorem lookup_written {written : List (String × Option Json)} {rest : Json.Fields}
    (hnodup : (written.map (·.1)).Nodup)
    (hrest : forall f, f ∈ rest -> f.1 ∉ written.map (·.1)) :
    forall f, f ∈ written ->
      ((written.filterMap fun f => f.2.map (f.1, ·)) ++ rest).lookup f.1 = f.2 := by
  induction written with
  | nil => exact fun f hf => absurd hf List.not_mem_nil
  | cons head tail ih =>
      rw [List.map_cons, List.nodup_cons] at hnodup
      have htail := ih hnodup.2 fun f hf hmem => hrest f hf (List.mem_cons_of_mem _ hmem)
      have hothers : forall f : String × Json,
          f ∈ (tail.filterMap fun f => f.2.map (f.1, ·)) ++ rest -> f.1 ≠ head.1 := by
        intro f hf heq
        rcases List.mem_append.mp hf with hf | hf
        · rcases List.mem_filterMap.mp hf with ⟨g, hg, hsome⟩
          rcases Option.map_eq_some_iff.mp hsome with ⟨j, _, rfl⟩
          exact hnodup.1 (heq ▸ List.mem_map_of_mem hg)
        · exact hrest f hf (heq ▸ List.mem_cons_self)
      intro f hf
      rcases List.mem_cons.mp hf with rfl | hf
      · cases hvalue : f.2 with
        | none =>
            rw [List.filterMap_cons_none (by rw [hvalue]; rfl)]
            exact lookup_none hothers
        | some j =>
            rw [List.filterMap_cons_some (by rw [hvalue]; rfl), List.cons_append,
              List.lookup_cons_self]
      · have hne : (f.1 == head.1) = false :=
          beq_eq_false_iff_ne.mpr fun heq => hnodup.1 (heq ▸ List.mem_map_of_mem hf)
        cases hvalue : head.2 with
        | none =>
            rw [List.filterMap_cons_none (by rw [hvalue]; rfl)]
            exact htail f hf
        | some j =>
            rw [List.filterMap_cons_some (by rw [hvalue]; rfl), List.cons_append,
              List.lookup_cons, hne]
            exact htail f hf

theorem dumped_fields (a : value) (extra : Json.Fields) :
    (Json.obj (s.fields a extra)).dumped = .obj
      (((s.write a).map fun f => (f.1, f.2.map Json.dumped)).filterMap
          (fun f => f.2.map (f.1, ·)) ++ extra.map fun f => (f.1, f.2.dumped)) := by
  rw [Json.dumped, Json.dumpedFields_eq, fields, List.map_append, List.map_filterMap,
    List.filterMap_map]
  congr 3
  funext f
  cases h : f.2 <;> simp [Function.comp, h]

theorem unknown_fields {written : List (String × Option Json)} {extra : Json.Fields}
    (hnamed : written.map (·.1) = s.names) (hapart : s.Apart extra) :
    unknown s.names ((written.filterMap fun f => f.2.map (f.1, ·)) ++ extra) = extra := by
  have hdefined : unknown s.names (written.filterMap fun f => f.2.map (f.1, ·)) = [] := by
    refine List.filter_eq_nil_iff.mpr fun f hf hunknown => ?_
    rcases List.mem_filterMap.mp hf with ⟨g, hg, hsome⟩
    rcases Option.map_eq_some_iff.mp hsome with ⟨j, _, rfl⟩
    have hmem : g.1 ∈ s.names := hnamed ▸ List.mem_map_of_mem hg
    rw [Bool.not_eq_true', List.contains_eq_mem, decide_eq_false_iff_not] at hunknown
    exact hunknown hmem
  have hextra : unknown s.names extra = extra := by
    refine List.filter_eq_self.mpr fun f hf => ?_
    rw [Bool.not_eq_true', List.contains_eq_mem, decide_eq_false_iff_not]
    exact hapart f hf
  rw [unknown, List.filter_append]
  change unknown s.names _ ++ unknown s.names extra = extra
  rw [hdefined, hextra, List.nil_append]

theorem openRecord_faithful (h : s.Faithful proper) (hnodup : s.names.Nodup) :
    s.openRecord.Faithful fun a => proper a.1 ∧ s.Apart a.2 := by
  rintro ⟨a, extra⟩ ⟨ha, hapart⟩
  let written := (s.write a).map fun f => (f.1, f.2.map Json.dumped)
  let dumpedExtra : Json.Fields := extra.map fun f => (f.1, f.2.dumped)
  have hnamed : written.map (·.1) = s.names := by
    rw [List.map_map]
    exact h.named a
  have hextra : s.Apart dumpedExtra := by
    intro f hf
    rcases List.mem_map.mp hf with ⟨g, hg, rfl⟩
    exact hapart g hg
  have hback := h.back a
    (((written.filterMap fun f => f.2.map (f.1, ·)) ++ dumpedExtra).lookup ·) ha (by
      intro f hf
      have hlookup := @lookup_written written dumpedExtra (hnamed ▸ hnodup)
        (fun f hf => hnamed ▸ hextra f hf) (f.1, f.2.map Json.dumped)
        (List.mem_map.mpr ⟨f, hf, rfl⟩)
      exact hlookup)
  have hkept : dumpedExtra = extra <-> forall f, f ∈ extra -> f.2.finite = true := by
    rw [← Json.finiteFields_iff, ← Json.dumpedFields_eq_iff, Json.dumpedFields_eq]
  rw [finiteAt_openRecord]
  change s.openRecord.read (Json.obj (s.fields a extra)).dumped = _ <-> _
  rw [dumped_fields]
  change (s.read _).map (fun b => (b, unknown s.names _)) = some (a, extra) <-> _
  rw [unknown_fields hnamed hextra, ← hkept, Option.map_eq_some_iff, ← hback]
  constructor
  · rintro ⟨b, hread, heq⟩
    rw [Prod.mk.injEq] at heq
    rw [← heq.1]
    exact ⟨hread, heq.2⟩
  · rintro ⟨hread, heq⟩
    exact ⟨a, hread, by rw [heq]⟩

theorem dumpedFields_fields (a : value) (extra : Json.Fields) :
    Json.dumpedFields (s.fields a extra) =
      ((s.write a).map fun f => (f.1, f.2.map Json.dumped)).filterMap
          (fun f => f.2.map (f.1, ·)) ++ extra.map fun f => (f.1, f.2.dumped) := by
  have hfields := @dumped_fields _ s a extra
  rw [Json.dumped] at hfields
  injection hfields

theorem lookup_dumped {a : value} (hnamed : (s.write a).map (·.1) = s.names)
    (hnodup : s.names.Nodup) {extra : Json.Fields} (hapart : s.Apart extra)
    {f : String × Option Json} (hf : f ∈ s.write a) :
    List.lookup f.1 (Json.dumpedFields (s.fields a extra)) = f.2.map Json.dumped := by
  rw [dumpedFields_fields]
  have hnamed : ((s.write a).map fun f => (f.1, f.2.map Json.dumped)).map (·.1) = s.names := by
    rw [List.map_map]
    exact hnamed
  refine lookup_written (hnamed ▸ hnodup) (fun g hg => ?_) (f.1, f.2.map Json.dumped)
    (List.mem_map.mpr ⟨f, hf, rfl⟩)
  rcases List.mem_map.mp hg with ⟨e, he, rfl⟩
  rw [hnamed]
  exact hapart e he

theorem unknown_dumped {a : value} (hnamed : (s.write a).map (·.1) = s.names)
    {extra : Json.Fields} (hapart : s.Apart extra) :
    unknown s.names (Json.dumpedFields (s.fields a extra)) =
      extra.map fun f => (f.1, f.2.dumped) := by
  rw [dumpedFields_fields]
  refine unknown_fields ?_ fun g hg => ?_
  · rw [List.map_map]
    exact hnamed
  · rcases List.mem_map.mp hg with ⟨e, he, rfl⟩
    exact hapart e he

theorem not_mem_of_unknown {names : List String} {fields : Json.Fields} {f : String × Json}
    (hf : f ∈ unknown names fields) : f.1 ∉ names := by
  have hunknown := (List.mem_filter.mp hf).2
  rwa [Bool.not_eq_true', List.contains_eq_mem, decide_eq_false_iff_not] at hunknown

theorem mem_field {name : String} {default : Option value} {leftOut : value -> Bool}
    {c : Codec value} {a : value} :
    (name, if leftOut a then none else some (c.write a)) ∈
      (field name default leftOut c).write a := List.mem_cons_self

theorem mem_and_left {s : Shape first} {t : Shape second} {a : first × second}
    {f : String × Option Json} (h : f ∈ s.write a.1) : f ∈ (s.and t).write a :=
  List.mem_append_left _ h

theorem mem_and_right {s : Shape first} {t : Shape second} {a : first × second}
    {f : String × Option Json} (h : f ∈ t.write a.2) : f ∈ (s.and t).write a :=
  List.mem_append_right _ h

theorem openRecord_read {j : Json} {a : value × Json.Fields}
    (h : s.openRecord.read j = some a) :
    exists fields, j = .obj fields ∧ s.read (List.lookup · fields) = some a.1 ∧
      a.2 = unknown s.names fields := by
  cases j with
  | obj fields =>
      rcases Option.map_eq_some_iff.mp h with ⟨b, hread, rfl⟩
      exact ⟨fields, rfl, hread, rfl⟩
  | _ => cases h

end Shape

/-!
## Records within a document
-/

/-- A codec of records: what it does not define of a document stays in `extra`, and is
dumped along with the record. -/
structure Codec.KeepsUnknown {value : Type} (c : Codec value) (names : List String)
    (extra : value -> Json.Fields) : Prop where
  read : forall j a, c.read j = some a ->
    exists fields, j = .obj fields ∧ extra a = Shape.unknown names fields
  dumped : forall a, (forall f, f ∈ extra a -> f.1 ∉ names) ->
    exists fields, (c.write a).dumped = .obj fields ∧
      Shape.unknown names fields = (extra a).map fun f => (f.1, f.2.dumped)

theorem Shape.keepsUnknown {value whole : Type} {s : Shape value}
    (hnamed : forall a, (s.write a).map (·.1) = s.names)
    (e : (value × Json.Fields) ≃ whole) :
    (s.openRecord.map e).KeepsUnknown s.names fun a => (e.symm a).2 where
  read j a h := by
    rcases Option.map_eq_some_iff.mp h with ⟨b, hread, rfl⟩
    rcases Shape.openRecord_read hread with ⟨fields, hj, _, hextra⟩
    exact ⟨fields, hj, by rw [Equiv.symm_apply_apply, hextra]⟩
  dumped a hapart :=
    ⟨Json.dumpedFields (s.fields (e.symm a).1 (e.symm a).2), rfl,
      Shape.unknown_dumped (hnamed _) hapart⟩

theorem Codec.KeepsUnknown.apart {value : Type} {c : Codec value} {names : List String}
    {extra : value -> Json.Fields} (h : c.KeepsUnknown names extra) {j : Json} {a : value}
    (hread : c.read j = some a) : forall f, f ∈ extra a -> f.1 ∉ names := by
  rcases h.read j a hread with ⟨fields, _, hextra⟩
  intro f hf
  rw [hextra] at hf
  exact Shape.not_mem_of_unknown hf

def unknownAt (path : String) (names : List String) : Json -> List (String × Json)
  | .obj fields => (Shape.unknown names fields).map fun f => (path ++ f.1, f.2)
  | _ => []

def unknownUnder (name : String) (names : List String) :
    Option Json -> List (String × Json)
  | some (.arr items) =>
      (items.mapIdx fun i item => unknownAt s!"{name}[{i}]." names item).flatten
  | some j => unknownAt s!"{name}." names j
  | none => []

def extraAt (path : String) (extra : Json.Fields) : List (String × Json) :=
  extra.map fun f => (path ++ f.1, f.2)

def extraOfEach (name : String) (extras : List Json.Fields) : List (String × Json) :=
  (extras.mapIdx fun i extra => extraAt s!"{name}[{i}]." extra).flatten

def extraOfOne (name : String) : Option Json.Fields -> List (String × Json)
  | some extra => extraAt s!"{name}." extra
  | none => []

def dumpedAll (found : List (String × Json)) : List (String × Json) :=
  found.map fun f => (f.1, f.2.dumped)

theorem dumpedAll_eq_iff (found : List (String × Json)) :
    dumpedAll found = found <-> forall f, f ∈ found -> f.2.finite = true := by
  rw [dumpedAll, ← Json.dumpedFields_eq, Json.dumpedFields_eq_iff, Json.finiteFields_iff]

theorem dumpedAll_extraAt (path : String) (extra : Json.Fields) :
    dumpedAll (extraAt path extra) =
      extraAt path (extra.map fun f => (f.1, f.2.dumped)) := by
  rw [dumpedAll, extraAt, extraAt, List.map_map, List.map_map]
  rfl

section KeepsUnknown

variable {value : Type} {c : Codec value} {names : List String}
  {extra : value -> Json.Fields}

theorem unknownAt_read (h : c.KeepsUnknown names extra) {j : Json} {a : value}
    (hread : c.read j = some a) (path : String) :
    unknownAt path names j = extraAt path (extra a) := by
  rcases h.read j a hread with ⟨fields, rfl, hextra⟩
  rw [hextra]
  rfl

theorem unknownAt_dumped (h : c.KeepsUnknown names extra) {a : value}
    (hapart : forall f, f ∈ extra a -> f.1 ∉ names) (path : String) :
    unknownAt path names (c.write a).dumped = dumpedAll (extraAt path (extra a)) := by
  rcases h.dumped a hapart with ⟨fields, hdumped, hunknown⟩
  rw [hdumped, dumpedAll_extraAt, ← hunknown]
  rfl

theorem unknownUnder_items {items : List Json} {extras : List Json.Fields} {name : String}
    (h : List.Forall₂ (fun item extra => forall path,
      unknownAt path names item = extraAt path extra) items extras) :
    unknownUnder name names (some (.arr items)) = extraOfEach name extras := by
  rw [List.forall₂_iff_get] at h
  refine congrArg List.flatten (List.ext_getElem ?_ ?_)
  · rw [List.length_mapIdx, List.length_mapIdx, h.1]
  · intro i hi hi'
    rw [List.length_mapIdx] at hi hi'
    rw [List.getElem_mapIdx, List.getElem_mapIdx]
    exact h.2 i hi hi' _

theorem unknownUnder_readList (h : c.KeepsUnknown names extra) {j : Json}
    {records : List value} (hread : c.list.read j = some records) (name : String) :
    unknownUnder name names (some j) = extraOfEach name (records.map extra) := by
  cases j with
  | arr items =>
      change List.mapM c.read items = some records at hread
      rw [Fallible.mapM_some_iff] at hread
      refine unknownUnder_items ?_
      rw [List.forall₂_map_right_iff]
      exact hread.imp fun _ _ hitem path => unknownAt_read h hitem path
  | _ => cases hread

theorem unknownUnder_readOne (h : c.KeepsUnknown names extra) {j : Json} {a : value}
    (hread : c.read j = some a) (name : String) :
    unknownUnder name names (some j) = extraOfOne name (some (extra a)) := by
  rcases h.read j a hread with ⟨fields, rfl, _⟩
  exact unknownAt_read h hread _

theorem dumpedAll_extraOfEach (name : String) (extras : List Json.Fields) :
    dumpedAll (extraOfEach name extras) =
      extraOfEach name (extras.map fun extra => extra.map fun f => (f.1, f.2.dumped)) := by
  unfold dumpedAll extraOfEach
  rw [List.map_flatten, List.mapIdx_eq_zipIdx_map, List.mapIdx_eq_zipIdx_map, List.map_map,
    List.zipIdx_map, List.map_map]
  congr 2
  funext item
  exact dumpedAll_extraAt _ item.1

theorem unknownUnder_dumpedList (h : c.KeepsUnknown names extra) {records : List value}
    (hapart : forall a, a ∈ records -> forall f, f ∈ extra a -> f.1 ∉ names)
    (name : String) :
    unknownUnder name names (some (c.list.write records).dumped) =
      dumpedAll (extraOfEach name (records.map extra)) := by
  have hdump : (c.list.write records).dumped =
      .arr (records.map fun a => (c.write a).dumped) := by
    rw [Codec.list, Json.dumped, Json.dumpedItems_eq, List.map_map]
    rfl
  rw [hdump, dumpedAll_extraOfEach, List.map_map]
  refine unknownUnder_items ?_
  rw [List.forall₂_map_left_iff, List.forall₂_map_right_iff, List.forall₂_same]
  intro a ha path
  rw [unknownAt_dumped h (hapart a ha), dumpedAll_extraAt]
  rfl

theorem unknownUnder_dumpedOne (h : c.KeepsUnknown names extra) {a : value}
    (hapart : forall f, f ∈ extra a -> f.1 ∉ names) (name : String) :
    unknownUnder name names (some (c.write a).dumped) =
      dumpedAll (extraOfOne name (some (extra a))) := by
  rcases h.dumped a hapart with ⟨fields, hdumped, _⟩
  have hat := unknownAt_dumped h hapart s!"{name}."
  rw [hdumped] at hat ⊢
  exact hat

end KeepsUnknown
end Lib
end MightyColab
