import Mathlib.Data.List.Infix
import MightyColab.Lib.Path

/-!
# Directory trees

A tree of files, symbolic links and directories, addressed by the names from its root. What
is at a path can be looked up and altered; two lookups meet an alteration: the path that was
altered, and every path that neither leads to it nor starts with it.
-/

namespace MightyColab
namespace Lib

inductive Node (content : Type) where
  | file (data : content)
  | link (target : String)
  | dir (entries : List (String × Node content))
  deriving Inhabited

namespace Node

variable {content : Type}

def at? : List String -> Option (Node content) -> Option (Node content)
  | [], n => n
  | name :: rest, some (.dir entries) => at? rest (entries.lookup name)
  | _ :: _, _ => none

def withEntry (entries : List (String × Node content)) (name : String) :
    Option (Node content) -> List (String × Node content)
  | some n => (name, n) :: entries.filter (·.1 ≠ name)
  | none => entries.filter (·.1 ≠ name)

def alter (f : Option (Node content) -> Option (Node content)) :
    List String -> Option (Node content) -> Option (Node content)
  | [], n => f n
  | name :: rest, some (.dir entries) =>
      some (.dir (withEntry entries name (alter f rest (entries.lookup name))))
  | _ :: _, n => n

def isDir : Option (Node content) -> Bool
  | some (.dir _) => true
  | _ => false

/-- Neither of two paths leads to the other. -/
def Apart (p q : List String) : Prop := ¬p <+: q ∧ ¬q <+: p

theorem apart_append {here : List String} {p q : List String} (h : Apart p q) :
    Apart (here ++ p) (here ++ q) :=
  ⟨fun hp => h.1 ((List.prefix_append_right_inj here).mp hp),
    fun hq => h.2 ((List.prefix_append_right_inj here).mp hq)⟩

theorem apart_names {name other : String} (h : name ≠ other) (p q : List String) :
    Apart (name :: p) (other :: q) :=
  ⟨fun hp => h (List.cons_prefix_cons.mp hp).1,
    fun hq => h (List.cons_prefix_cons.mp hq).1.symm⟩

theorem apart_siblings (here : List String) {name other : String} (h : name ≠ other)
    (p q : List String) : Apart (here ++ name :: p) (here ++ other :: q) :=
  apart_append (apart_names h p q)

/-!
## Looking up
-/

@[simp] theorem at?_nil (n : Option (Node content)) : at? [] n = n := by
  cases n <;> rfl

@[simp] theorem at?_none (p : List String) :
    at? p (none : Option (Node content)) = none := by
  cases p <;> rfl

theorem at?_append (p q : List String) (n : Option (Node content)) :
    at? (p ++ q) n = at? q (at? p n) := by
  induction p generalizing n with
  | nil => rw [List.nil_append, at?_nil]
  | cons name rest ih =>
      match n with
      | some (.dir entries) => exact ih _
      | some (.file _) => exact (at?_none q).symm
      | some (.link _) => exact (at?_none q).symm
      | none => exact (at?_none q).symm

theorem lookup_withEntry_self (entries : List (String × Node content)) (name : String)
    (n : Option (Node content)) : (withEntry entries name n).lookup name = n := by
  cases n with
  | some n => exact List.lookup_cons_self
  | none =>
      rw [withEntry, List.lookup_eq_none_iff]
      intro e he
      have hne := (List.mem_filter.mp he).2
      rw [decide_eq_true_eq] at hne
      exact bne_iff_ne.mpr hne.symm

theorem lookup_filter_ne (entries : List (String × Node content)) {name other : String}
    (h : other ≠ name) :
    (entries.filter (·.1 ≠ name)).lookup other = entries.lookup other := by
  induction entries with
  | nil => rfl
  | cons e rest ih =>
      by_cases he : e.1 = name
      · rw [List.filter_cons_of_neg (by simp [he]), ih, List.lookup_cons,
          beq_eq_false_iff_ne.mpr (he ▸ h)]
      · rw [List.filter_cons_of_pos (by simp [he]), List.lookup_cons, List.lookup_cons, ih]

theorem lookup_withEntry_ne (entries : List (String × Node content)) {name other : String}
    (n : Option (Node content)) (h : other ≠ name) :
    (withEntry entries name n).lookup other = entries.lookup other := by
  cases n with
  | some n =>
      rw [withEntry, List.lookup_cons, beq_eq_false_iff_ne.mpr h]
      exact lookup_filter_ne entries h
  | none => exact lookup_filter_ne entries h

theorem at?_alter_self {f : Option (Node content) -> Option (Node content)}
    {here : List String} {name : String} {n : Option (Node content)}
    (h : isDir (at? here n) = true) :
    at? (here ++ [name]) (alter f (here ++ [name]) n) = f (at? (here ++ [name]) n) := by
  induction here generalizing n with
  | nil =>
      rw [at?_nil] at h
      match n, h with
      | some (.dir entries), _ =>
          change at? [] ((withEntry entries name (f (entries.lookup name))).lookup name) = _
          rw [lookup_withEntry_self, at?_nil]
          rfl
  | cons first rest ih =>
      match n, h with
      | some (.dir entries), h =>
          change at? (rest ++ [name]) ((withEntry entries first _).lookup first) = _
          rw [lookup_withEntry_self]
          exact ih h

theorem at?_alter_apart {f : Option (Node content) -> Option (Node content)}
    {p q : List String} (h : Apart p q) (n : Option (Node content)) :
    at? q (alter f p n) = at? q n := by
  induction p generalizing q n with
  | nil => exact absurd List.nil_prefix h.1
  | cons name rest ih =>
      cases q with
      | nil => exact absurd List.nil_prefix h.2
      | cons other below =>
          match n with
          | some (.dir entries) =>
              change at? below ((withEntry entries name _).lookup other) =
                at? below (entries.lookup other)
              by_cases hname : other = name
              · rw [hname, lookup_withEntry_self]
                refine ih ⟨fun hp => h.1 ?_, fun hq => h.2 ?_⟩ _
                · exact List.cons_prefix_cons.mpr ⟨hname.symm, hp⟩
                · exact List.cons_prefix_cons.mpr ⟨hname, hq⟩
              · rw [lookup_withEntry_ne entries _ hname]
          | some (.file _) => rfl
          | some (.link _) => rfl
          | none => rfl

theorem at?_alter_below {f : Option (Node content) -> Option (Node content)}
    {here : List String} {name : String} {n : Option (Node content)}
    (h : isDir (at? here n) = true) (below : List String) :
    at? (here ++ name :: below) (alter f (here ++ [name]) n) =
      at? below (f (at? (here ++ [name]) n)) := by
  have hpath : here ++ name :: below = (here ++ [name]) ++ below := by
    rw [List.append_assoc, List.singleton_append]
  rw [hpath, at?_append, at?_alter_self h]

theorem isDir_alter {f : Option (Node content) -> Option (Node content)}
    {here below : List String} {n : Option (Node content)} (hbelow : below ≠ [])
    (h : isDir (at? here n) = true) :
    isDir (at? here (alter f (here ++ below) n)) = true := by
  induction here generalizing n with
  | nil =>
      rw [at?_nil] at h
      cases below with
      | nil => exact absurd rfl hbelow
      | cons name rest =>
          match n, h with
          | some (.dir entries), _ => rfl
  | cons first rest ih =>
      match n, h with
      | some (.dir entries), h =>
          change isDir (at? rest ((withEntry entries first _).lookup first)) = true
          rw [lookup_withEntry_self]
          exact ih h

end Node
end Lib
end MightyColab
