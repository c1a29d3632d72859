import Mathlib.Data.List.Induction
import Mathlib.Data.List.Nodup

/-!
# Dictionaries

A Python dict as its items in the order of insertion. An item that is set again keeps its
place and takes the new value.
-/

namespace MightyColab
namespace Lib
namespace Dict

variable {Key Value : Type} [DecidableEq Key]

/-- `dict[key] = value`. -/
def set : List (Key × Value) -> Key -> Value -> List (Key × Value)
  | [], key, value => [(key, value)]
  | (k, v) :: rest, key, value =>
      if k = key then (key, value) :: rest else (k, v) :: set rest key value

def ofPairs (pairs : List (Key × Value)) : List (Key × Value) :=
  pairs.foldl (fun dict pair => set dict pair.1 pair.2) []

/-- `del dict[key]`. -/
def erase (dict : List (Key × Value)) (key : Key) : List (Key × Value) :=
  dict.filter fun item => item.1 ≠ key

def keys (dict : List (Key × Value)) : List Key := dict.map Prod.fst

def Consistent (pairs : List (Key × Value)) : Prop :=
  forall p q, p ∈ pairs -> q ∈ pairs -> p.1 = q.1 -> p.2 = q.2

variable {dict pairs : List (Key × Value)} {key key' : Key} {value : Value}

theorem lookup_set : (set dict key value).lookup key' =
    if key' = key then some value else dict.lookup key' := by
  by_cases h : key' = key
  · rw [if_pos h, h]
    induction dict with
    | nil => simp [set]
    | cons item rest ih =>
        rcases item with ⟨k, v⟩
        by_cases hk : k = key
        · simp [set, hk]
        · have hbeq : (key == k) = false := beq_eq_false_iff_ne.mpr (Ne.symm hk)
          simp only [set, hk, if_false, List.lookup_cons, hbeq]
          exact ih
  · rw [if_neg h]
    have hbeq : (key' == key) = false := beq_eq_false_iff_ne.mpr h
    induction dict with
    | nil => simp only [set, List.lookup_cons, hbeq]
    | cons item rest ih =>
        rcases item with ⟨k, v⟩
        by_cases hk : k = key
        · simp only [set, hk, if_true, List.lookup_cons, hbeq]
        · simp only [set, hk, if_false, List.lookup_cons, ih]

theorem mem_set {item : Key × Value} (h : item ∈ set dict key value) :
    item = (key, value) ∨ item ∈ dict := by
  induction dict with
  | nil => exact Or.inl (List.mem_singleton.mp h)
  | cons first rest ih =>
      rcases first with ⟨k, v⟩
      unfold set at h
      split at h
      · rcases List.mem_cons.mp h with heq | hrest
        · exact Or.inl heq
        · exact Or.inr (List.mem_cons_of_mem _ hrest)
      · rcases List.mem_cons.mp h with heq | hrest
        · exact Or.inr (heq ▸ List.mem_cons_self)
        · rcases ih hrest with heq | hmem
          · exact Or.inl heq
          · exact Or.inr (List.mem_cons_of_mem _ hmem)

theorem mem_keys_set : key' ∈ keys (set dict key value) <-> key' = key ∨ key' ∈ keys dict := by
  induction dict with
  | nil => simp [set, keys]
  | cons first rest ih =>
      rcases first with ⟨k, v⟩
      unfold set
      split
      · next heq =>
          simp only [keys, List.map_cons, List.mem_cons, heq]
          tauto
      · simp only [keys, List.map_cons, List.mem_cons] at ih ⊢
        rw [ih]
        tauto

theorem nodup_keys_set (h : (keys dict).Nodup) : (keys (set dict key value)).Nodup := by
  induction dict with
  | nil => exact List.nodup_singleton key
  | cons first rest ih =>
      rcases first with ⟨k, v⟩
      rcases List.nodup_cons.mp h with ⟨hfirst, hrest⟩
      unfold set
      split
      · next heq =>
          rw [heq] at hfirst
          exact List.nodup_cons.mpr ⟨hfirst, hrest⟩
      · next hne =>
          refine List.nodup_cons.mpr ⟨fun hmem => ?_, ih hrest⟩
          rcases mem_keys_set.mp hmem with heq | hmem
          · exact hne heq
          · exact hfirst hmem

theorem lookup_erase : (erase dict key).lookup key' =
    if key' = key then none else dict.lookup key' := by
  unfold erase
  induction dict with
  | nil => split <;> rfl
  | cons first rest ih =>
      rcases first with ⟨k, v⟩
      by_cases hk : k = key
      · rw [List.filter_cons_of_neg (by simp [hk]), ih, List.lookup_cons]
        by_cases h : key' = key
        · rw [if_pos h, if_pos h]
        · have hbeq : (key' == k) = false := beq_eq_false_iff_ne.mpr fun heq => h (heq.trans hk)
          rw [if_neg h, if_neg h, hbeq]
      · rw [List.filter_cons_of_pos (by simp [hk]), List.lookup_cons, List.lookup_cons, ih]
        by_cases h : key' = key
        · have hbeq : (key' == k) = false :=
            beq_eq_false_iff_ne.mpr fun heq => hk (heq.symm.trans h)
          rw [if_pos h, if_pos h, hbeq]
        · rw [if_neg h, if_neg h]

theorem ofPairs_concat (pairs : List (Key × Value)) (pair : Key × Value) :
    ofPairs (pairs ++ [pair]) = set (ofPairs pairs) pair.1 pair.2 := by
  rw [ofPairs, List.foldl_append]
  rfl

theorem lookup_ofPairs (pairs : List (Key × Value)) :
    (ofPairs pairs).lookup key = pairs.reverse.lookup key := by
  induction pairs using List.reverseRecOn with
  | nil => rfl
  | append_singleton pairs pair ih =>
      rw [ofPairs_concat, lookup_set, ih, List.reverse_append, List.reverse_singleton,
        List.singleton_append, List.lookup_cons]
      by_cases h : key = pair.1
      · simp [h]
      · have hbeq : (key == pair.1) = false := by simpa using h
        rw [if_neg h, hbeq]

theorem mem_ofPairs {item : Key × Value} (h : item ∈ ofPairs pairs) : item ∈ pairs := by
  induction pairs using List.reverseRecOn with
  | nil => cases h
  | append_singleton pairs pair ih =>
      rw [ofPairs_concat] at h
      rcases mem_set h with heq | hmem
      · rw [heq]
        simp
      · exact List.mem_append_left _ (ih hmem)

theorem mem_keys_ofPairs : key ∈ keys (ofPairs pairs) <-> key ∈ keys pairs := by
  induction pairs using List.reverseRecOn with
  | nil => rfl
  | append_singleton pairs pair ih =>
      rw [ofPairs_concat, mem_keys_set, ih]
      simp [keys, or_comm]

theorem lookup_of_mem (hone : Consistent dict) (h : (key, value) ∈ dict) :
    dict.lookup key = some value := by
  induction dict with
  | nil => cases h
  | cons first rest ih =>
      rcases first with ⟨k, v⟩
      rw [List.lookup_cons]
      by_cases hk : key = k
      · have hvalue := hone (key, value) (k, v) h List.mem_cons_self hk
        simp only at hvalue
        simp [hk, hvalue]
      · have hbeq : (key == k) = false := by simpa using hk
        rw [hbeq]
        rcases List.mem_cons.mp h with heq | hmem
        · cases heq
          exact absurd rfl hk
        · exact ih (fun p q hp hq => hone p q (List.mem_cons_of_mem _ hp)
            (List.mem_cons_of_mem _ hq)) hmem

omit [DecidableEq Key] in
theorem consistent_of_nodup (h : (keys dict).Nodup) : Consistent dict := by
  intro p q hp hq heq
  rw [List.inj_on_of_nodup_map h hp hq heq]

theorem lookup_ofPairs_of_mem (hone : Consistent pairs) (h : (key, value) ∈ pairs) :
    (ofPairs pairs).lookup key = some value := by
  rw [lookup_ofPairs]
  refine lookup_of_mem ?_ (List.mem_reverse.mpr h)
  intro p q hp hq
  exact hone p q (List.mem_reverse.mp hp) (List.mem_reverse.mp hq)

end Dict
end Lib
end MightyColab
