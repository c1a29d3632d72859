import Mathlib.Data.List.Basic

/-!
# Text as lists of characters

The searches of Python's `str`, on the characters of the text.
-/

namespace MightyColab
namespace Lib
namespace Text

def startsWith (text start : String) : Bool := start.toList.isPrefixOf text.toList

def endsWith (text ending : String) : Bool := ending.toList.isSuffixOf text.toList

/-- The text before and after the first `sep`. -/
def cut (sep : List Char) : List Char -> Option (List Char × List Char)
  | [] => none
  | c :: rest =>
      if sep.isPrefixOf (c :: rest) then some ([], (c :: rest).drop sep.length)
      else (cut sep rest).map fun parts => (c :: parts.1, parts.2)

/-- The text after the last `sep`, if there is one. -/
def afterLast? (sep : Char) : List Char -> Option (List Char)
  | [] => none
  | c :: rest => (afterLast? sep rest).or (if c = sep then some rest else none)

/-- `str.isspace` of one character. -/
def isSpace (c : Char) : Bool :=
  let n := c.toNat
  decide (9 ≤ n ∧ n ≤ 13) || decide (28 ≤ n ∧ n ≤ 32) || decide (0x2000 ≤ n ∧ n ≤ 0x200A) ||
    n ∈ [0x85, 0xA0, 0x1680, 0x2028, 0x2029, 0x202F, 0x205F, 0x3000]

/-- `str.strip`. -/
def strip (text : String) : String :=
  String.ofList ((text.toList.dropWhile isSpace).reverse.dropWhile isSpace).reverse

def nonempty? (text : List Char) : Option String :=
  if text = [] then none else some (String.ofList text)

/-!
## Beginnings
-/

theorem startsWith_iff {text start : String} :
    startsWith text start = true <-> exists rest, text = start ++ rest := by
  rw [startsWith, List.isPrefixOf_iff_prefix]
  constructor
  · rintro ⟨rest, hrest⟩
    refine ⟨String.ofList rest, String.toList_inj.mp ?_⟩
    rw [String.toList_append, String.toList_ofList, hrest]
  · rintro ⟨rest, rfl⟩
    rw [String.toList_append]
    exact List.prefix_append _ _

theorem not_startsWith {lead start : String} {c d : Char} (hlead : lead.toList.head? = some c)
    (hstart : start.toList.head? = some d) (hne : c ≠ d) (rest : String) :
    startsWith (lead ++ rest) start = false := by
  apply Bool.eq_false_iff.mpr
  intro h
  rcases startsWith_iff.mp h with ⟨rest', heq⟩
  have hheads := congrArg (fun text : String => text.toList.head?) heq
  simp only [String.toList_append, List.head?_append, hlead, hstart, Option.some_or] at hheads
  exact hne (Option.some.inj hheads)

/-!
## The last separator
-/

theorem afterLast?_absent {sep : Char} {text : List Char} (h : sep ∉ text) :
    afterLast? sep text = none := by
  induction text with
  | nil => rfl
  | cons c rest ih =>
      rw [afterLast?, ih (List.not_mem_of_not_mem_cons h), Option.none_or,
        if_neg (Ne.symm (List.ne_of_not_mem_cons h))]

theorem afterLast?_append {sep : Char} {back : List Char} (h : sep ∉ back)
    (front : List Char) : afterLast? sep (front ++ sep :: back) = some back := by
  induction front with
  | nil => rw [List.nil_append, afterLast?, afterLast?_absent h, Option.none_or, if_pos rfl]
  | cons c front ih => rw [List.cons_append, afterLast?, ih, Option.some_or]

theorem afterLast?_mem {sep : Char} {text : List Char} (h : sep ∈ text) :
    exists first last, text = first ++ sep :: last ∧ sep ∉ last ∧
      afterLast? sep text = some last := by
  rcases List.eq_append_cons_of_mem (List.mem_reverse.mpr h) with ⟨last, first, hreverse, hnot⟩
  have htext : text = first.reverse ++ sep :: last.reverse := by
    rw [← List.reverse_reverse text, hreverse]
    simp
  have hlast : sep ∉ last.reverse := fun hin => hnot (List.mem_reverse.mp hin)
  exact ⟨first.reverse, last.reverse, htext, hlast, by rw [htext, afterLast?_append hlast]⟩

/-!
## Letter case
-/

theorem isUpper_iff {c : Char} : c.isUpper = true <-> 65 ≤ c.toNat ∧ c.toNat ≤ 90 := by
  change decide (c.val ≥ 'A'.val ∧ c.val ≤ 'Z'.val) = true <-> _
  rw [decide_eq_true_eq, ge_iff_le, UInt32.le_iff_toNat_le, UInt32.le_iff_toNat_le]
  exact Iff.rfl

theorem isLower_iff {c : Char} : c.isLower = true <-> 97 ≤ c.toNat ∧ c.toNat ≤ 122 := by
  change (decide (c.val ≥ 'a'.val) && decide (c.val ≤ 'z'.val)) = true <-> _
  rw [Bool.and_eq_true, decide_eq_true_eq, decide_eq_true_eq, ge_iff_le,
    UInt32.le_iff_toNat_le, UInt32.le_iff_toNat_le]
  exact Iff.rfl

theorem isAlpha_iff {c : Char} : c.isAlpha = true <->
    (65 ≤ c.toNat ∧ c.toNat ≤ 90) ∨ (97 ≤ c.toNat ∧ c.toNat ≤ 122) := by
  change (c.isUpper || c.isLower) = true <-> _
  rw [Bool.or_eq_true, isUpper_iff, isLower_iff]

theorem upper_cases {c : Char} (h : c.isUpper = true) :
    exists n : Fin 26, c = Char.ofNat (65 + n) := by
  have hrange := isUpper_iff.mp h
  refine ⟨⟨c.toNat - 65, by omega⟩, ?_⟩
  rw [Nat.add_sub_cancel' hrange.1, Char.ofNat_toNat]

theorem toLower_of_not_upper {c : Char} (h : c.isUpper = false) : c.toLower = c := by
  unfold Char.toLower
  rw [dif_neg]
  intro hrange
  exact Bool.eq_false_iff.mp h (decide_eq_true hrange)

theorem isAlpha_toLower (c : Char) : c.toLower.isAlpha = c.isAlpha := by
  cases hupper : c.isUpper with
  | false => rw [toLower_of_not_upper hupper]
  | true =>
      rcases upper_cases hupper with ⟨n, rfl⟩
      revert n
      decide

theorem toLower_toLower (c : Char) : c.toLower.toLower = c.toLower := by
  cases hupper : c.isUpper with
  | false => rw [toLower_of_not_upper hupper, toLower_of_not_upper hupper]
  | true =>
      rcases upper_cases hupper with ⟨n, rfl⟩
      revert n
      decide

theorem toLower_not_alpha {c : Char} (h : c.isAlpha = false) : c.toLower = c := by
  apply toLower_of_not_upper
  cases hupper : c.isUpper with
  | false => rfl
  | true =>
      rw [isAlpha_iff.mpr (Or.inl (isUpper_iff.mp hupper))] at h
      cases h

theorem toLower_eq_iff {c sep : Char} (hsep : sep.isAlpha = false) :
    c.toLower = sep <-> c = sep := by
  constructor
  · intro h
    have halpha : c.isAlpha = false := by
      rw [← isAlpha_toLower, h, hsep]
    rwa [toLower_not_alpha halpha] at h
  · intro h
    rw [h, toLower_not_alpha hsep]

theorem isDigit_alpha {c : Char} (h : c.isAlpha = true) : c.isDigit = false := by
  have hrange := isAlpha_iff.mp h
  simp only [Char.isDigit, Bool.and_eq_false_iff, decide_eq_false_iff_not, ge_iff_le,
    UInt32.le_iff_toNat_le]
  have hc : c.toNat = c.val.toNat := rfl
  have hdigit : '9'.val.toNat = 57 := rfl
  omega

theorem isDigit_toLower (c : Char) : c.toLower.isDigit = c.isDigit := by
  cases halpha : c.isAlpha with
  | false => rw [toLower_not_alpha halpha]
  | true =>
      have hlower : c.toLower.isAlpha = true := by
        rw [isAlpha_toLower, halpha]
      rw [isDigit_alpha halpha, isDigit_alpha hlower]

end Text
end Lib
end MightyColab
