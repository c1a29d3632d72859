import Mathlib.Data.List.TakeWhile
import MightyColab.Lib.IpAddress

/-!
# URLs

`urllib.parse.urlsplit`, and the host and the port of its result, on lists of characters.
Of the Unicode data only the laws of `Unicode` are used.
-/

namespace MightyColab
namespace Lib
namespace Url

/-!
## Searches
-/

/-- The text before the first `sep`, or all of it. -/
def before (sep : Char) (text : List Char) : List Char := text.takeWhile (· ≠ sep)

/-- The text after the first `sep`. -/
def after (sep : Char) (text : List Char) : List Char := (text.dropWhile (· ≠ sep)).tail

/-- The text after the last `sep`, or all of it. -/
def afterLast (sep : Char) (text : List Char) : List Char :=
  (Text.afterLast? sep text).getD text

def isAscii (c : Char) : Bool := c.toNat < 128

/-!
## Unicode
-/

inductive Lowered (forms : Char -> List (List Char)) : List Char -> List Char -> Prop where
  | nil : Lowered forms [] []
  | cons {c : Char} {form text lower : List Char} (hform : form ∈ forms c)
      (hrest : Lowered forms text lower) : Lowered forms (c :: text) (form ++ lower)

def delimiters : List Char := ['/', '?', '#', '@', ':']

structure Unicode where
  /-- The lower-case forms of a character: a final sigma has its own. -/
  forms : Char -> List (List Char)
  lower : List Char -> List Char
  nfkc : List Char -> List Char
  lower_forms : forall text, Lowered forms text (lower text)
  lower_lower : forall text, lower (lower text) = lower text
  forms_ascii : forall c, isAscii c = true -> forms c = [[c.toLower]]
  forms_other : forall c form, isAscii c = false -> form ∈ forms c ->
    form ≠ [] ∧ forall d, d ∈ form -> isAscii d = true -> d.isLower = true
  forms_nfkc : forall c form d delimiter, form ∈ forms c -> d ∈ form ->
    delimiter ∈ delimiters -> delimiter ∈ nfkc [d] -> delimiter ∈ nfkc [c]
  nfkc_ascii : forall c, isAscii c = true -> nfkc [c] = [c]
  mem_nfkc : forall text delimiter, delimiter ∈ delimiters ->
    (delimiter ∈ nfkc text <-> exists c, c ∈ text ∧ delimiter ∈ nfkc [c])

def asciiUnicode : Unicode where
  forms c := [[c.toLower]]
  lower text := text.map Char.toLower
  nfkc text := text
  lower_forms := by
    intro text
    induction text with
    | nil => exact .nil
    | cons c rest ih => exact .cons (List.mem_singleton_self _) ih
  lower_lower := by
    intro text
    rw [List.map_map]
    exact List.map_congr_left fun c _ => Text.toLower_toLower c
  forms_ascii := by
    intro c _
    rfl
  forms_other := by
    intro c form hascii hform
    have hupper : c.isUpper = false := by
      cases hupper : c.isUpper with
      | false => rfl
      | true =>
          clear hform
          rcases Text.upper_cases hupper with ⟨n, rfl⟩
          revert n
          decide
    rw [List.mem_singleton, Text.toLower_of_not_upper hupper] at hform
    rw [hform]
    refine ⟨List.cons_ne_nil _ _, ?_⟩
    intro d hd hother
    rw [List.mem_singleton.mp hd, hascii] at hother
    cases hother
  forms_nfkc := by
    intro c form d delimiter hform hd hdelimiter hin
    rw [List.mem_singleton.mp hform] at hd
    rw [List.mem_singleton.mp hd, List.mem_singleton] at hin
    have halpha : delimiter.isAlpha = false := by
      simp only [delimiters, List.mem_cons, List.not_mem_nil, or_false] at hdelimiter
      rcases hdelimiter with rfl | rfl | rfl | rfl | rfl <;> rfl
    rw [(Text.toLower_eq_iff halpha).mp hin.symm]
    exact List.mem_singleton_self _
  nfkc_ascii := by
    intro c _
    rfl
  mem_nfkc := by
    intro text delimiter _
    simp

/-!
## Splitting
-/

structure Parts where
  scheme : List Char
  netloc : List Char
  path : List Char
  query : List Char
  fragment : List Char
  deriving DecidableEq, Repr

/-- `_UNSAFE_URL_BYTES_TO_REMOVE`. -/
def bytesToRemove : List Char := ['\t', '\r', '\n']

/-- Without what `urlsplit` drops before it looks at a text. -/
def clean (text : List Char) : List Char :=
  (text.dropWhile fun c => c.toNat ≤ 32).filter (· ∉ bytesToRemove)

/-- `scheme_chars`. -/
def schemeChar (c : Char) : Bool := c.isAlphanum || c == '+' || c == '-' || c == '.'

def isScheme (name : List Char) : Bool :=
  (match name with
    | c :: _ => c.isAlpha
    | [] => false) && name.all schemeChar

def cutScheme (text : List Char) : List Char × List Char :=
  if ':' ∈ text ∧ isScheme (before ':' text) = true then
    ((before ':' text).map Char.toLower, after ':' text)
  else ([], text)

def endsNetloc (c : Char) : Bool := c == '/' || c == '?' || c == '#'

/-- `_splitnetloc` of a text that begins with two slashes. -/
def cutNetloc (text : List Char) : List Char × List Char :=
  match text with
  | '/' :: '/' :: rest =>
      (rest.takeWhile fun c => !endsNetloc c, rest.dropWhile fun c => !endsNetloc c)
  | _ => ([], text)

/-- The parts of a text, whatever `urlsplit` then checks of them. -/
def parts (text : List Char) : Parts :=
  let scheme := cutScheme (clean text)
  let netloc := cutNetloc scheme.2
  { scheme := scheme.1
    netloc := netloc.1
    path := before '?' (before '#' netloc.2)
    query := after '?' (before '#' netloc.2)
    fragment := after '#' netloc.2 }

/-!
## The checks
-/

def isHex (c : Char) : Bool := (IpAddress.hexDigit c).isSome

/-- `_check_bracketed_host`. -/
def bracketedHostOk (host : List Char) : Bool :=
  match host with
  | 'v' :: rest =>
      !(rest.takeWhile isHex).isEmpty &&
        (match rest.dropWhile isHex with
          | '.' :: more => !more.isEmpty && !more.contains '\n'
          | _ => false)
  | _ => (IpAddress.read4 host).isNone && (IpAddress.read6 host).isSome

/-- `_check_bracketed_netloc`. -/
def bracketedNetlocOk (netloc : List Char) : Bool :=
  let info := afterLast '@' netloc
  if '[' ∈ info then
    let bracketed := after '[' info
    let port := after ']' bracketed
    (before '[' info).isEmpty && (port.isEmpty || port.head? == some ':') &&
      bracketedHostOk (before ']' bracketed)
  else bracketedHostOk (before ':' info)

def bracketsOk (netloc : List Char) : Bool :=
  (netloc.contains '[' == netloc.contains ']') &&
    (!netloc.contains '[' || bracketedNetlocOk netloc)

/-- `_checknetloc`. -/
def netlocOk (unicode : Unicode) (netloc : List Char) : Bool :=
  netloc.all isAscii ||
    (let text := netloc.filter fun c => c ∉ ['@', ':', '#', '?']
     unicode.nfkc text == text || delimiters.all fun c => c ∉ unicode.nfkc text)

/-- `urlsplit`, or nothing where it raises. -/
def urlsplit (unicode : Unicode) (text : List Char) : Option Parts :=
  if bracketsOk (parts text).netloc && netlocOk unicode (parts text).netloc then
    some (parts text)
  else none

/-!
## Host and port
-/

/-- `_hostinfo`: the host and the port as they stand. -/
def hostinfo (netloc : List Char) : List Char × List Char :=
  let info := afterLast '@' netloc
  if '[' ∈ info then
    let bracketed := after '[' info
    (before ']' bracketed, after ':' (after ']' bracketed))
  else (before ':' info, after ':' info)

def lowerHost (unicode : Unicode) (host : List Char) : List Char :=
  unicode.lower (host.takeWhile (· ≠ '%')) ++ host.dropWhile (· ≠ '%')

def hostname (unicode : Unicode) (netloc : List Char) : Option (List Char) :=
  if (hostinfo netloc).1 = [] then none else some (lowerHost unicode (hostinfo netloc).1)

/-- `port`, where it does not raise. -/
def port (netloc : List Char) : Option Nat :=
  let text := (hostinfo netloc).2
  let value := Nat.ofDigitChars 10 text 0
  if text ≠ [] ∧ text.all Char.isDigit = true ∧ value ≤ 65535 then some value else none

/-!
## What the searches find
-/

variable {sep c : Char} {text first rest : List Char} {unicode : Unicode}

theorem before_append (h : sep ∉ first) : before sep (first ++ sep :: rest) = first := by
  have hne : forall c, c ∈ first -> decide (c ≠ sep) = true := by
    intro c hc
    exact decide_eq_true (ne_of_mem_of_not_mem hc h)
  rw [before, List.takeWhile_append_of_pos hne]
  simp

theorem after_append (h : sep ∉ first) : after sep (first ++ sep :: rest) = rest := by
  have hne : forall c, c ∈ first -> decide (c ≠ sep) = true := by
    intro c hc
    exact decide_eq_true (ne_of_mem_of_not_mem hc h)
  rw [after, List.dropWhile_append_of_pos hne]
  simp

theorem before_absent (h : sep ∉ text) : before sep text = text := by
  rw [before, List.takeWhile_eq_self_iff]
  intro c hc
  exact decide_eq_true (ne_of_mem_of_not_mem hc h)

theorem after_absent (h : sep ∉ text) : after sep text = [] := by
  have hdrop : text.dropWhile (· ≠ sep) = [] := by
    rw [List.dropWhile_eq_nil_iff]
    intro c hc
    exact decide_eq_true (ne_of_mem_of_not_mem hc h)
  rw [after, hdrop, List.tail_nil]

theorem afterLast_absent (h : sep ∉ text) : afterLast sep text = text := by
  rw [afterLast, Text.afterLast?_absent h, Option.getD_none]

theorem afterLast_spec (sep : Char) (text : List Char) :
    sep ∉ afterLast sep text ∧ afterLast sep text <:+ text := by
  by_cases hmem : sep ∈ text
  · rcases Text.afterLast?_mem hmem with ⟨first, last, htext, hnot, hlast⟩
    rw [afterLast, hlast, Option.getD_some]
    exact ⟨hnot, first ++ [sep], by rw [htext]; simp⟩
  · rw [afterLast_absent hmem]
    exact ⟨hmem, List.suffix_rfl⟩

theorem not_mem_before (sep : Char) (text : List Char) : sep ∉ before sep text := by
  intro hmem
  have hne := List.mem_takeWhile_imp hmem
  simp at hne

theorem not_mem_afterLast (sep : Char) (text : List Char) : sep ∉ afterLast sep text :=
  (afterLast_spec sep text).1

theorem mem_of_before (h : c ∈ before sep text) : c ∈ text :=
  (List.takeWhile_sublist _).subset h

theorem mem_of_after (h : c ∈ after sep text) : c ∈ text :=
  (List.dropWhile_sublist _).subset (List.mem_of_mem_tail h)

theorem mem_of_afterLast (h : c ∈ afterLast sep text) : c ∈ text :=
  (afterLast_spec sep text).2.subset h

theorem before_after (h : sep ∈ text) : text = before sep text ++ sep :: after sep text := by
  have hsplit := (@List.takeWhile_append_dropWhile _ (fun c => decide (c ≠ sep)) text).symm
  cases hdrop : text.dropWhile (· ≠ sep) with
  | nil =>
      rw [List.dropWhile_eq_nil_iff] at hdrop
      have hne := hdrop sep h
      simp at hne
  | cons c rest =>
      have hc : c = sep := by
        have hhead := List.head?_dropWhile_not (fun c => decide (c ≠ sep)) text
        rw [hdrop] at hhead
        simpa using hhead
      rw [after, hdrop, List.tail_cons, ← hc, ← hdrop]
      rw [hc]
      exact hsplit

/-!
## Lower case
-/

def Plain (c : Char) : Prop := isAscii c = true ∧ c.isAlpha = false

theorem mem_lowered {forms : Char -> List (List Char)} {lower : List Char}
    (h : Lowered forms text lower) {d : Char} (hd : d ∈ lower) :
    exists c form, c ∈ text ∧ form ∈ forms c ∧ d ∈ form := by
  induction h with
  | nil => cases hd
  | @cons c form text lower hform hrest ih =>
      rcases List.mem_append.mp hd with hmem | hmem
      · exact ⟨c, form, List.mem_cons_self, hform, hmem⟩
      · rcases ih hmem with ⟨c', form', hc', hform', hd'⟩
        exact ⟨c', form', List.mem_cons_of_mem _ hc', hform', hd'⟩

theorem mem_lower_plain (hplain : Plain c) : c ∈ unicode.lower text <-> c ∈ text := by
  constructor
  · intro h
    rcases mem_lowered (unicode.lower_forms text) h with ⟨d, form, hd, hform, hc⟩
    cases hascii : isAscii d with
    | true =>
        rw [unicode.forms_ascii d hascii, List.mem_singleton] at hform
        rw [hform, List.mem_singleton] at hc
        rwa [(Text.toLower_eq_iff hplain.2).mp hc.symm] at hd
    | false =>
        have hlower := (unicode.forms_other d form hascii hform).2 c hc hplain.1
        have halpha := Text.isAlpha_iff.mpr (Or.inr (Text.isLower_iff.mp hlower))
        rw [hplain.2] at halpha
        cases halpha
  · intro h
    have hforms := unicode.lower_forms text
    generalize unicode.lower text = lower at hforms
    induction hforms with
    | nil => cases h
    | @cons d form text lower hform hrest ih =>
        rcases List.mem_cons.mp h with heq | hmem
        · rw [← heq, unicode.forms_ascii c hplain.1, Text.toLower_not_alpha hplain.2,
            List.mem_singleton] at hform
          rw [hform]
          exact List.mem_append_left _ (List.mem_singleton_self c)
        · exact List.mem_append_right _ (ih hmem)

theorem lowered_append {lower : List Char} (hascii : forall c, c ∈ first -> isAscii c = true)
    (h : Lowered unicode.forms (first ++ rest) lower) :
    exists more, lower = first.map Char.toLower ++ more ∧
      Lowered unicode.forms rest more := by
  induction first generalizing lower with
  | nil => exact ⟨lower, rfl, h⟩
  | cons c first ih =>
      cases h with
      | @cons _ form _ lower hform hrest =>
          rcases ih (fun d hd => hascii d (List.mem_cons_of_mem _ hd)) hrest with
            ⟨more, heq, hmore⟩
          rw [unicode.forms_ascii c (hascii c List.mem_cons_self), List.mem_singleton] at hform
          refine ⟨more, ?_, hmore⟩
          rw [hform, heq]
          rfl

theorem lower_ascii (hascii : forall c, c ∈ text -> isAscii c = true) :
    unicode.lower text = text.map Char.toLower := by
  have hforms := unicode.lower_forms (text ++ [])
  rcases lowered_append hascii hforms with ⟨more, heq, hmore⟩
  cases hmore
  simpa using heq

theorem lowered_ne_nil {lower : List Char} (h : Lowered unicode.forms text lower)
    (hne : text ≠ []) : lower ≠ [] := by
  cases h with
  | nil => exact absurd rfl hne
  | @cons c form text lower hform hrest =>
      have hform : form ≠ [] := by
        cases hascii : isAscii c with
        | true =>
            rw [unicode.forms_ascii c hascii, List.mem_singleton] at hform
            rw [hform]
            exact List.cons_ne_nil _ _
        | false => exact (unicode.forms_other c form hascii hform).1
      simp [hform]

theorem lower_nil : unicode.lower [] = [] := by
  have hforms := unicode.lower_forms []
  generalize unicode.lower [] = lower at hforms
  cases hforms
  rfl

/-!
## Hosts
-/

variable {host netloc path fragment scheme : List Char}

theorem mem_lowerHost (hplain : Plain c) : c ∈ lowerHost unicode host <-> c ∈ host := by
  rw [lowerHost, List.mem_append, mem_lower_plain hplain, ← List.mem_append,
    List.takeWhile_append_dropWhile]

theorem takeWhile_lowerHost :
    (lowerHost unicode host).takeWhile (· ≠ '%') = unicode.lower (host.takeWhile (· ≠ '%')) ∧
      (lowerHost unicode host).dropWhile (· ≠ '%') = host.dropWhile (· ≠ '%') := by
  have hnot : '%' ∉ unicode.lower (host.takeWhile (· ≠ '%')) := by
    rw [mem_lower_plain ⟨by decide, by decide⟩]
    exact not_mem_before '%' host
  have hne : forall c, c ∈ unicode.lower (host.takeWhile (· ≠ '%')) ->
      decide (c ≠ '%') = true := by
    intro c hc
    exact decide_eq_true (ne_of_mem_of_not_mem hc hnot)
  rw [lowerHost, List.takeWhile_append_of_pos hne, List.dropWhile_append_of_pos hne]
  cases hdrop : host.dropWhile (· ≠ '%') with
  | nil => simp
  | cons c rest =>
      have hhead := List.head?_dropWhile_not (fun c => decide (c ≠ '%')) host
      rw [hdrop] at hhead
      have hc : c = '%' := by simpa using hhead
      simp [hc]

theorem lowerHost_lowerHost : lowerHost unicode (lowerHost unicode host) =
    lowerHost unicode host := by
  rcases @takeWhile_lowerHost unicode host with ⟨htake, hdrop⟩
  rw [lowerHost, htake, hdrop, unicode.lower_lower, ← lowerHost]

theorem isAscii_addressChar (h : IpAddress.AddressChar c) : isAscii c = true := by
  rcases h with hhex | rfl | rfl
  · simp only [isAscii, decide_eq_true_eq]
    unfold IpAddress.hexDigit at hhex
    split at hhex
    · next hdigit =>
        simp only [Char.isDigit, Bool.and_eq_true, decide_eq_true_eq] at hdigit
        have hle := UInt32.le_iff_toNat_le.mp hdigit.2
        exact Nat.lt_of_le_of_lt hle (by decide)
    · split at hhex
      · next hlower => exact Nat.lt_of_le_of_lt (UInt32.le_iff_toNat_le.mp hlower.2) (by decide)
      · split at hhex
        · next hupper =>
            exact Nat.lt_of_le_of_lt (UInt32.le_iff_toNat_le.mp hupper.2) (by decide)
        · cases hhex
  · decide
  · decide

theorem splitOn_singleton_iff {part : List Char} :
    text.splitOn sep = [part] <-> sep ∉ text ∧ part = text := by
  constructor
  · intro h
    have hnot : sep ∉ text := by
      intro hmem
      rw [before_after hmem, List.splitOn_append_cons_self] at h
      have hlength := congrArg List.length h
      have hfirst := List.length_pos_iff.mpr (List.splitOn_ne_nil sep (before sep text))
      have hrest := List.length_pos_iff.mpr (List.splitOn_ne_nil sep (after sep text))
      rw [List.length_append, List.length_singleton] at hlength
      omega
    rw [List.splitOn_eq_singleton hnot] at h
    exact ⟨hnot, (List.cons.inj h).1.symm⟩
  · intro h
    rw [List.splitOn_eq_singleton h.1, h.2]

theorem read6_iff {bits : BitVec 128} :
    IpAddress.read6 host = some bits <->
      '/' ∉ host ∧ IpAddress.readBits6 (before '%' host) = some bits ∧
      ('%' ∈ host -> after '%' host ≠ [] ∧ '%' ∉ after '%' host) := by
  unfold IpAddress.read6
  by_cases hslash : '/' ∈ host
  · simp [hslash]
  · rw [if_neg hslash]
    by_cases hpercent : '%' ∈ host
    · have hsplit : host.splitOn '%' =
          before '%' host :: (after '%' host).splitOn '%' := by
        conv => lhs; rw [before_after hpercent]
        exact List.splitOn_append_cons_self_of_not_mem (not_mem_before _ _) _
      rw [hsplit]
      by_cases hscope : '%' ∈ after '%' host
      · have hlong : exists part next more,
            (after '%' host).splitOn '%' = part :: next :: more := by
          cases hparts : (after '%' host).splitOn '%' with
          | nil => exact absurd hparts (List.splitOn_ne_nil _ _)
          | cons part rest =>
              cases rest with
              | nil => exact absurd hscope (splitOn_singleton_iff.mp hparts).1
              | cons next more => exact ⟨part, next, more, rfl⟩
        rcases hlong with ⟨part, next, more, hlong⟩
        rw [hlong]
        simp [hpercent, hscope]
      · rw [List.splitOn_eq_singleton hscope]
        by_cases hempty : after '%' host = []
        · simp [hempty, hpercent]
        · simp [hempty, hpercent, hslash, hscope]
    · rw [List.splitOn_eq_singleton hpercent, before_absent hpercent]
      simp [hslash, hpercent]

theorem read6_lowerHost {bits : BitVec 128} (h : IpAddress.read6 host = some bits) :
    IpAddress.read6 (lowerHost unicode host) = some bits := by
  rw [read6_iff] at h ⊢
  rcases h with ⟨hslash, hbits, hscope⟩
  rcases @takeWhile_lowerHost unicode host with ⟨htake, hdrop⟩
  have hplain : Plain '%' := ⟨by decide, by decide⟩
  have hafter : after '%' (lowerHost unicode host) = after '%' host := by
    rw [after, hdrop, ← after]
  refine ⟨?_, ?_, ?_⟩
  · rwa [mem_lowerHost ⟨by decide, by decide⟩]
  · have hascii : forall c, c ∈ before '%' host -> isAscii c = true := by
      intro c hc
      exact isAscii_addressChar (IpAddress.readBits6_chars hbits c hc)
    rw [before, htake, ← before, lower_ascii hascii, IpAddress.readBits6_toLower, hbits]
  · rwa [mem_lowerHost hplain, hafter]

theorem read6_shape {bits : BitVec 128} (h : IpAddress.read6 host = some bits) :
    ':' ∈ host ∧ exists c rest, host = c :: rest ∧ IpAddress.AddressChar c := by
  rcases read6_iff.mp h with ⟨_, hbits, _⟩
  have hcolon := IpAddress.readBits6_colon hbits
  refine ⟨mem_of_before hcolon, ?_⟩
  cases host with
  | nil => cases hcolon
  | cons c rest =>
      refine ⟨c, rest, rfl, IpAddress.readBits6_chars hbits c ?_⟩
      rw [before, List.takeWhile_cons]
      split
      · exact List.mem_cons_self
      · next hpercent =>
          rw [before, List.takeWhile_cons, if_neg hpercent] at hcolon
          cases hcolon

theorem read4_no_colon (h : ':' ∈ host) : IpAddress.read4 host = none := by
  cases hread : IpAddress.read4 host with
  | none => rfl
  | some bits =>
      rcases IpAddress.read4_chars hread ':' h with hdigit | hdot
      · exact absurd hdigit (by decide)
      · exact absurd hdot (by decide)

theorem not_addressChar_v : ¬IpAddress.AddressChar 'v' := by
  unfold IpAddress.AddressChar
  decide

theorem not_addressChar_bracket : ¬IpAddress.AddressChar '[' := by
  unfold IpAddress.AddressChar
  decide

theorem bracketedHostOk_read6 (h : bracketedHostOk host = true) (hv : host.head? ≠ some 'v') :
    exists bits, IpAddress.read6 host = some bits := by
  unfold bracketedHostOk at h
  split at h
  · exact absurd rfl hv
  · rw [Bool.and_eq_true] at h
    exact Option.isSome_iff_exists.mp h.2

theorem bracketedHostOk_of_read6 {bits : BitVec 128} (h : IpAddress.read6 host = some bits) :
    bracketedHostOk host = true := by
  rcases read6_shape h with ⟨hcolon, c, rest, heq, hc⟩
  unfold bracketedHostOk
  split
  · cases heq
    exact absurd hc not_addressChar_v
  · rw [read4_no_colon hcolon, h]
    rfl

theorem bracketedHostOk_head (h : bracketedHostOk host = true) : host.head? ≠ some '[' := by
  intro hhead
  rcases bracketedHostOk_read6 h (by rw [hhead]; decide) with ⟨bits, hbits⟩
  rcases read6_shape hbits with ⟨_, c, rest, heq, hc⟩
  rw [heq, List.head?_cons, Option.some.injEq] at hhead
  rw [hhead] at hc
  exact not_addressChar_bracket hc

theorem bracketedHostOk_future (rest : List Char) :
    bracketedHostOk ('v' :: rest) = true <->
      exists digits more, rest = digits ++ '.' :: more ∧ digits ≠ [] ∧
        (forall c, c ∈ digits -> isHex c = true) ∧ more ≠ [] ∧ '\n' ∉ more := by
  have hshape : bracketedHostOk ('v' :: rest) = (!(rest.takeWhile isHex).isEmpty &&
      (match rest.dropWhile isHex with
        | '.' :: more => !more.isEmpty && !more.contains '\n'
        | _ => false)) := rfl
  rw [hshape, Bool.and_eq_true]
  constructor
  · rintro ⟨hdigits, hmore⟩
    split at hmore
    · next more hdrop =>
        refine ⟨rest.takeWhile isHex, more, ?_, by simpa using hdigits, ?_, by simpa using hmore⟩
        · rw [← hdrop, List.takeWhile_append_dropWhile]
        · intro c hc
          exact List.mem_takeWhile_imp hc
    · cases hmore
  · rintro ⟨digits, more, rfl, hdigits, hhex, hmore, hline⟩
    rw [List.takeWhile_append_of_pos hhex, List.dropWhile_append_of_pos hhex]
    have hdot : isHex '.' = false := by decide
    simp [hdot, hdigits, hmore, hline]

theorem isHex_ascii (h : isHex c = true) : isAscii c = true :=
  isAscii_addressChar (Or.inl h)

theorem isHex_toLower (c : Char) : isHex c.toLower = isHex c := by
  rw [isHex, IpAddress.hexDigit_toLower, ← isHex]

theorem lowerHost_future {digits more : List Char} (hdigits : digits ≠ [])
    (hhex : forall c, c ∈ digits -> isHex c = true) (hmore : more ≠ []) (hline : '\n' ∉ more) :
    bracketedHostOk (lowerHost unicode ('v' :: (digits ++ '.' :: more))) = true := by
  have hsplit : 'v' :: (digits ++ '.' :: more) = ('v' :: digits ++ ['.']) ++ more := by simp
  have hfirst : forall c, c ∈ 'v' :: digits ++ ['.'] ->
      isAscii c = true ∧ c ≠ '%' ∧ c ≠ '\n' := by
    intro c hc
    simp only [List.cons_append, List.mem_cons, List.mem_append, List.not_mem_nil,
      or_false] at hc
    rcases hc with rfl | hc | rfl
    · decide
    · have hhexc := hhex c hc
      refine ⟨isHex_ascii hhexc, ?_, ?_⟩
      · rintro rfl
        exact absurd hhexc (by decide)
      · rintro rfl
        exact absurd hhexc (by decide)
    · decide
  have hne : forall c, c ∈ 'v' :: digits ++ ['.'] -> decide (c ≠ '%') = true := by
    intro c hc
    exact decide_eq_true (hfirst c hc).2.1
  have hforms := unicode.lower_forms (('v' :: digits ++ ['.']) ++ more.takeWhile (· ≠ '%'))
  rcases lowered_append (fun c hc => (hfirst c hc).1) hforms with ⟨lower, hlower, hrest⟩
  have hshape : lowerHost unicode ('v' :: (digits ++ '.' :: more)) =
      'v' :: (digits.map Char.toLower ++ '.' :: (lower ++ more.dropWhile (· ≠ '%'))) := by
    rw [hsplit, lowerHost, List.takeWhile_append_of_pos hne, List.dropWhile_append_of_pos hne,
      hlower]
    have hv : 'v'.toLower = 'v' := by decide
    have hdot : '.'.toLower = '.' := by decide
    simp [hv, hdot]
  have hnewline : '\n' ∉ lowerHost unicode ('v' :: (digits ++ '.' :: more)) := by
    rw [mem_lowerHost ⟨by decide, by decide⟩, hsplit]
    intro hmem
    rcases List.mem_append.mp hmem with hin | hin
    · exact (hfirst _ hin).2.2 rfl
    · exact hline hin
  rw [hshape] at hnewline ⊢
  refine (bracketedHostOk_future _).mpr ⟨digits.map Char.toLower, _, rfl, ?_, ?_, ?_, ?_⟩
  · simpa using hdigits
  · intro c hc
    rcases List.mem_map.mp hc with ⟨d, hd, rfl⟩
    rw [isHex_toLower]
    exact hhex d hd
  · intro hnil
    rcases List.append_eq_nil_iff.mp hnil with ⟨hlowerNil, hdrop⟩
    apply hmore
    rw [← @List.takeWhile_append_dropWhile _ (fun c => decide (c ≠ '%')) more, hdrop]
    by_contra htake
    rw [List.append_nil] at htake
    exact lowered_ne_nil hrest htake hlowerNil
  · intro hmem
    apply hnewline
    exact List.mem_cons_of_mem _ (List.mem_append_right _ (List.mem_cons_of_mem _ hmem))

theorem bracketedHostOk_lowerHost (h : bracketedHostOk host = true) :
    bracketedHostOk (lowerHost unicode host) = true := by
  by_cases hv : host.head? = some 'v'
  · cases host with
    | nil => cases hv
    | cons v rest =>
        rw [List.head?_cons, Option.some.injEq] at hv
        rw [hv] at h ⊢
        rcases (bracketedHostOk_future rest).mp h with
          ⟨digits, more, rfl, hdigits, hhex, hmore, hline⟩
        exact lowerHost_future hdigits hhex hmore hline
  · rcases bracketedHostOk_read6 h hv with ⟨bits, hbits⟩
    exact bracketedHostOk_of_read6 (read6_lowerHost hbits)

end Url
end Lib
end MightyColab
