import MightyColab.Lib.Url

/-!
# URLs written from their parts

A URL that is put together from a scheme, a host, a port and a path, and what `urlsplit`
reads of it. A host in lower case is read back but for one kind: an address in brackets
that holds a bracket of its own and no colon.
-/

namespace MightyColab
namespace Lib
namespace Url

variable {c : Char} {text first rest host netloc path fragment scheme : List Char}
variable {unicode : Unicode}

/-!
## Network locations written from a host and a port
-/

def bracketed (host : List Char) : List Char :=
  if ':' ∈ host ∧ host.head? ≠ some '[' then '[' :: host ++ [']'] else host

def portDigits : Option Nat -> List Char
  | none => []
  | some n => Nat.toDigits 10 n

def portText : Option Nat -> List Char
  | none => []
  | some n => ':' :: Nat.toDigits 10 n

def writeNetloc (host : List Char) (port : Option Nat) : List Char :=
  bracketed host ++ portText port

structure HostShape (host : List Char) : Prop where
  noAt : '@' ∉ host
  literal : ':' ∈ host -> ']' ∉ host ∧ bracketedHostOk host = true
  bare : ':' ∉ host -> ¬('[' ∈ host ∧ ']' ∈ host)

/-- A host that is the same when it is read again: no bracket in it but next to a colon. -/
def Rereads (host : List Char) : Prop := ':' ∈ host ∨ '[' ∉ host ∧ ']' ∉ host

instance (host : List Char) : Decidable (Rereads host) :=
  inferInstanceAs (Decidable (':' ∈ host ∨ '[' ∉ host ∧ ']' ∉ host))

variable {number : Option Nat}

theorem mem_portText (h : c ∈ portText number) : c = ':' ∨ c.isDigit = true := by
  cases number with
  | none => cases h
  | some n =>
      rcases List.mem_cons.mp h with heq | hdigit
      · exact Or.inl heq
      · exact Or.inr (Nat.isDigit_of_mem_toDigits (by decide) (by decide) hdigit)

theorem not_mem_portText (hcolon : c ≠ ':') (hdigit : c.isDigit = false) :
    c ∉ portText number := by
  intro h
  rcases mem_portText h with heq | hmem
  · exact hcolon heq
  · rw [hdigit] at hmem
    cases hmem

theorem before_portText (h : ':' ∉ first) : before ':' (first ++ portText number) = first := by
  cases number with
  | none => rw [portText, List.append_nil, before_absent h]
  | some n => exact before_append h

theorem after_portText (h : ':' ∉ first) :
    after ':' (first ++ portText number) = portDigits number := by
  cases number with
  | none => rw [portText, List.append_nil, after_absent h, portDigits]
  | some n => exact after_append h

theorem bracketed_literal (hshape : HostShape host) (hcolon : ':' ∈ host) :
    bracketed host = '[' :: host ++ [']'] :=
  if_pos ⟨hcolon, bracketedHostOk_head (hshape.literal hcolon).2⟩

theorem bracketed_bare (hcolon : ':' ∉ host) : bracketed host = host :=
  if_neg fun h => hcolon h.1

theorem mem_writeNetloc (h : c ∈ writeNetloc host number) :
    c ∈ host ∨ c = '[' ∨ c = ']' ∨ c = ':' ∨ c.isDigit = true := by
  rcases List.mem_append.mp h with hhost | hport
  · unfold bracketed at hhost
    split at hhost
    · simp only [List.cons_append, List.mem_cons, List.mem_append, List.not_mem_nil,
        or_false] at hhost
      tauto
    · exact Or.inl hhost
  · have hchar := mem_portText hport
    tauto

theorem writeNetloc_noAt (hshape : HostShape host) : '@' ∉ writeNetloc host number := by
  intro hmem
  rcases mem_writeNetloc hmem with h | h | h | h | h
  · exact hshape.noAt h
  all_goals exact absurd h (by decide)

theorem hostinfo_writeNetloc (hshape : HostShape host) (hrereads : Rereads host) :
    hostinfo (writeNetloc host number) = (host, portDigits number) := by
  unfold hostinfo
  rw [afterLast_absent (writeNetloc_noAt hshape)]
  by_cases hcolon : ':' ∈ host
  · rcases hshape.literal hcolon with ⟨hclose, _⟩
    have hnetloc : writeNetloc host number = [] ++ '[' :: (host ++ ']' :: portText number) := by
      rw [writeNetloc, bracketed_literal hshape hcolon]
      simp
    have hopen : '[' ∈ writeNetloc host number := by
      rw [hnetloc]
      exact List.mem_cons_self
    have hempty : '[' ∉ ([] : List Char) := List.not_mem_nil
    have hport := @after_portText [] number List.not_mem_nil
    rw [List.nil_append] at hport
    simp only [hopen, if_true]
    rw [hnetloc, after_append hempty, before_append hclose, after_append hclose, hport]
  · rcases hrereads with habs | ⟨hopen, _⟩
    · exact absurd habs hcolon
    · have hnot : '[' ∉ writeNetloc host number := by
        rw [writeNetloc, bracketed_bare hcolon]
        intro hmem
        rcases List.mem_append.mp hmem with h | h
        · exact hopen h
        · exact not_mem_portText (by decide) (by decide) h
      simp only [hnot, if_false]
      rw [writeNetloc, bracketed_bare hcolon, before_portText hcolon, after_portText hcolon]

/-- The brackets of a written network location are in order exactly when its host rereads. -/
theorem bracketsOk_writeNetloc (hshape : HostShape host) :
    bracketsOk (writeNetloc host number) = true <-> Rereads host := by
  by_cases hcolon : ':' ∈ host
  · refine iff_of_true ?_ (Or.inl hcolon)
    rcases hshape.literal hcolon with ⟨hclose, hok⟩
    have hnetloc : writeNetloc host number = [] ++ '[' :: (host ++ ']' :: portText number) := by
      rw [writeNetloc, bracketed_literal hshape hcolon]
      simp
    have hopen : '[' ∈ writeNetloc host number := by
      rw [hnetloc]
      exact List.mem_cons_self
    have hend : ']' ∈ writeNetloc host number := by
      rw [hnetloc]
      simp
    have hempty : '[' ∉ ([] : List Char) := List.not_mem_nil
    have hinner : bracketedNetlocOk (writeNetloc host number) = true := by
      unfold bracketedNetlocOk
      rw [afterLast_absent (writeNetloc_noAt hshape)]
      simp only [hopen, if_true]
      rw [hnetloc, before_append hempty, after_append hempty, before_append hclose,
        after_append hclose, hok]
      cases number <;> rfl
    simp [bracketsOk, hopen, hend, hinner]
  · have hmem : forall c, c ≠ ':' -> c.isDigit = false ->
        (c ∈ writeNetloc host number <-> c ∈ host) := by
      intro c hne hdigit
      rw [writeNetloc, bracketed_bare hcolon, List.mem_append]
      exact or_iff_left (not_mem_portText hne hdigit)
    have hopen := hmem '[' (by decide) (by decide)
    have hend := hmem ']' (by decide) (by decide)
    have hbare := hshape.bare hcolon
    unfold bracketsOk Rereads
    by_cases ho : '[' ∈ host
    · have hc : ']' ∉ host := fun h => hbare ⟨ho, h⟩
      simp [hopen, hend, ho, hc, hcolon]
    · by_cases hc : ']' ∈ host
      · simp [hopen, hend, ho, hc, hcolon]
      · simp [hopen, hend, ho, hc]

theorem port_writeNetloc (hshape : HostShape host) (hrereads : Rereads host)
    (hlimit : forall n, number = some n -> n ≤ 65535) :
    port (writeNetloc host number) = number := by
  unfold port
  rw [hostinfo_writeNetloc hshape hrereads]
  cases number with
  | none => simp [portDigits]
  | some n =>
      have hall : (Nat.toDigits 10 n).all Char.isDigit = true := by
        refine List.all_eq_true.mpr ?_
        intro c hc
        exact Nat.isDigit_of_mem_toDigits (by decide) (by decide) hc
      simp only [portDigits, Nat.ofDigitChars_ten_toDigits]
      rw [if_pos ⟨Nat.toDigits_ne_nil, hall, hlimit n rfl⟩]

theorem port_le {n : Nat} (h : port netloc = some n) : n ≤ 65535 := by
  unfold port at h
  dsimp only at h
  split at h
  · next hcond =>
      cases h
      exact hcond.2.2
  · cases h

theorem hostinfo_shape (h : bracketsOk netloc = true) : HostShape (hostinfo netloc).1 := by
  have hat := not_mem_afterLast '@' netloc
  unfold hostinfo
  dsimp only
  split
  · next hopen =>
      have hnetloc : '[' ∈ netloc := mem_of_afterLast hopen
      constructor
      · intro hmem
        exact hat (mem_of_after (mem_of_before hmem))
      · intro _
        refine ⟨not_mem_before _ _, ?_⟩
        simp only [bracketsOk, Bool.and_eq_true, Bool.or_eq_true, Bool.not_eq_true'] at h
        have hinner : bracketedNetlocOk netloc = true := by
          rcases h.2 with habs | hok
          · simp [hnetloc] at habs
          · exact hok
        unfold bracketedNetlocOk at hinner
        simp only [hopen, if_true, Bool.and_eq_true] at hinner
        exact hinner.2
      · intro _ hmem
        exact not_mem_before _ _ hmem.2
  · next hopen =>
      constructor
      · intro hmem
        exact hat (mem_of_before hmem)
      · intro hcolon
        exact absurd hcolon (not_mem_before _ _)
      · intro _ hmem
        exact hopen (mem_of_before hmem.1)

theorem HostShape.lower (h : HostShape host) : HostShape (lowerHost unicode host) where
  noAt := by
    rw [mem_lowerHost ⟨by decide, by decide⟩]
    exact h.noAt
  literal := by
    rw [mem_lowerHost ⟨by decide, by decide⟩, mem_lowerHost ⟨by decide, by decide⟩]
    intro hcolon
    exact ⟨(h.literal hcolon).1, bracketedHostOk_lowerHost (h.literal hcolon).2⟩
  bare := by
    rw [mem_lowerHost ⟨by decide, by decide⟩, mem_lowerHost ⟨by decide, by decide⟩,
      mem_lowerHost ⟨by decide, by decide⟩]
    exact h.bare

theorem mem_hostinfo (h : c ∈ (hostinfo netloc).1) : c ∈ netloc := by
  unfold hostinfo at h
  dsimp only at h
  split at h
  · exact mem_of_afterLast (mem_of_after (mem_of_before h))
  · exact mem_of_afterLast (mem_of_before h)

theorem isAscii_toLower (h : isAscii c = true) : isAscii c.toLower = true := by
  cases hupper : c.isUpper with
  | false => rw [Text.toLower_of_not_upper hupper, h]
  | true =>
      rcases Text.upper_cases hupper with ⟨n, rfl⟩
      revert n
      decide

theorem isAscii_digit (h : c.isDigit = true) : isAscii c = true := by
  simp only [Char.isDigit, Bool.and_eq_true, decide_eq_true_eq] at h
  exact decide_eq_true (Nat.lt_of_le_of_lt (UInt32.le_iff_toNat_le.mp h.2) (by decide))

theorem mem_lowerHost_from (h : c ∈ lowerHost unicode host) :
    exists d form, d ∈ host ∧ c ∈ form ∧ (form = [d] ∨ form ∈ unicode.forms d) := by
  rcases List.mem_append.mp h with hlower | hzone
  · rcases mem_lowered (unicode.lower_forms _) hlower with ⟨d, form, hd, hform, hc⟩
    exact ⟨d, form, mem_of_before hd, hc, Or.inr hform⟩
  · exact ⟨c, [c], (List.dropWhile_sublist _).subset hzone, List.mem_singleton_self c,
      Or.inl rfl⟩

theorem isAscii_lowerHost (h : forall c, c ∈ host -> isAscii c = true) :
    forall c, c ∈ lowerHost unicode host -> isAscii c = true := by
  intro c hc
  rcases mem_lowerHost_from hc with ⟨d, form, hd, hcform, hform⟩
  rcases hform with rfl | hform
  · rw [List.mem_singleton.mp hcform]
    exact h d hd
  · rw [unicode.forms_ascii d (h d hd), List.mem_singleton] at hform
    rw [hform] at hcform
    rw [List.mem_singleton.mp hcform]
    exact isAscii_toLower (h d hd)

def NoDelimiter (unicode : Unicode) (text : List Char) : Prop :=
  forall c, c ∈ text -> c ∉ ['@', ':', '#', '?'] -> forall d, d ∈ delimiters ->
    d ∉ unicode.nfkc [c]

theorem noDelimiter_of_netlocOk (h : netlocOk unicode netloc = true)
    (hascii : netloc.all isAscii = false) (hends : forall c, c ∈ netloc -> endsNetloc c = false) :
    NoDelimiter unicode netloc := by
  intro c hc hkept d hd hin
  rw [netlocOk, hascii, Bool.false_or] at h
  have htext : c ∈ netloc.filter fun c => c ∉ ['@', ':', '#', '?'] :=
    List.mem_filter.mpr ⟨hc, decide_eq_true hkept⟩
  have hmem := (unicode.mem_nfkc _ d hd).mpr ⟨c, htext, hin⟩
  rcases Bool.or_eq_true_iff.mp h with hsame | hclean
  · rw [beq_iff_eq.mp hsame, List.mem_filter, decide_eq_true_eq] at hmem
    have hends := hends d hmem.1
    have hnot := hmem.2
    simp only [delimiters, List.mem_cons, List.not_mem_nil, or_false] at hd
    rcases hd with rfl | rfl | rfl | rfl | rfl
    · exact absurd hends (by decide)
    all_goals exact absurd hnot (by decide)
  · have hnot := List.all_eq_true.mp hclean d hd
    simp only [decide_eq_true_eq] at hnot
    exact hnot hmem

theorem netlocOk_of_noDelimiter (h : NoDelimiter unicode netloc) :
    netlocOk unicode netloc = true := by
  refine Bool.or_eq_true_iff.mpr (Or.inr (Bool.or_eq_true_iff.mpr (Or.inr ?_)))
  refine List.all_eq_true.mpr ?_
  intro d hd
  refine decide_eq_true ?_
  intro hmem
  rcases (unicode.mem_nfkc _ d hd).mp hmem with ⟨c, hc, hin⟩
  rw [List.mem_filter, decide_eq_true_eq] at hc
  exact h c hc.1 hc.2 d hd hin

theorem noDelimiter_ascii (h : isAscii c = true) (hends : c ≠ '/')
    (hkept : c ∉ ['@', ':', '#', '?']) : forall d, d ∈ delimiters -> d ∉ unicode.nfkc [c] := by
  intro d hd hin
  rw [unicode.nfkc_ascii c h, List.mem_singleton] at hin
  rw [hin] at hd
  simp only [delimiters, List.mem_cons, List.not_mem_nil, or_false, not_or] at hd hkept
  tauto

theorem netlocOk_writeNetloc (h : netlocOk unicode netloc = true)
    (hends : forall c, c ∈ netloc -> endsNetloc c = false)
    (hmem : forall c, c ∈ host -> c ∈ netloc) :
    netlocOk unicode (writeNetloc (lowerHost unicode host) number) = true := by
  cases hascii : netloc.all isAscii with
  | true =>
      have hhost : forall c, c ∈ lowerHost unicode host -> isAscii c = true :=
        isAscii_lowerHost fun c hc => List.all_eq_true.mp hascii c (hmem c hc)
      have hall : (writeNetloc (lowerHost unicode host) number).all isAscii = true := by
        refine List.all_eq_true.mpr ?_
        intro c hc
        rcases mem_writeNetloc hc with hin | rfl | rfl | rfl | hdigit
        · exact hhost c hin
        · decide
        · decide
        · decide
        · exact isAscii_digit hdigit
      rw [netlocOk, hall]
      rfl
  | false =>
      have hclean := noDelimiter_of_netlocOk h hascii hends
      apply netlocOk_of_noDelimiter
      intro c hc hkept
      rcases mem_writeNetloc hc with hin | rfl | rfl | rfl | hdigit
      · rcases mem_lowerHost_from hin with ⟨d, form, hd, hcform, hform⟩
        rcases hform with rfl | hform
        · rw [List.mem_singleton.mp hcform] at hkept ⊢
          exact hclean d (hmem d hd) hkept
        · by_cases hdkept : d ∈ ['@', ':', '#', '?']
          · have hplain : Plain d := by
              simp only [List.mem_cons, List.not_mem_nil, or_false] at hdkept
              rcases hdkept with rfl | rfl | rfl | rfl <;> exact ⟨by decide, by decide⟩
            rw [unicode.forms_ascii d hplain.1, Text.toLower_not_alpha hplain.2,
              List.mem_singleton] at hform
            rw [hform] at hcform
            rw [List.mem_singleton.mp hcform] at hkept
            exact absurd hdkept hkept
          · intro delimiter hdelimiter hnfkc
            exact hclean d (hmem d hd) hdkept delimiter hdelimiter
              (unicode.forms_nfkc d form c delimiter hform hcform hdelimiter hnfkc)
      · exact noDelimiter_ascii (by decide) (by decide) hkept
      · exact noDelimiter_ascii (by decide) (by decide) hkept
      · exact absurd (by decide) hkept
      · refine noDelimiter_ascii (isAscii_digit hdigit) ?_ hkept
        rintro rfl
        exact absurd hdigit (by decide)

/-!
## The parts of a text
-/

structure Shape (p : Parts) : Prop where
  scheme : p.scheme = [] ∨ isScheme p.scheme = true ∧ p.scheme.map Char.toLower = p.scheme
  netloc : forall c, c ∈ p.netloc -> endsNetloc c = false
  path : '?' ∉ p.path ∧ '#' ∉ p.path
  rooted : p.netloc ≠ [] -> p.path = [] ∨ p.path.head? = some '/'
  kept : forall c, c ∈ p.scheme ++ (p.netloc ++ p.path) -> c ∉ bytesToRemove

theorem schemeChar_toLower (h : schemeChar c = true) : schemeChar c.toLower = true := by
  cases halpha : c.isAlpha with
  | false => rwa [Text.toLower_not_alpha halpha]
  | true =>
      have hlower : c.toLower.isAlpha = true := by rw [Text.isAlpha_toLower, halpha]
      simp [schemeChar, Char.isAlphanum, hlower]

theorem isScheme_toLower (h : isScheme scheme = true) :
    isScheme (scheme.map Char.toLower) = true := by
  cases scheme with
  | nil => cases h
  | cons c rest =>
      simp only [isScheme, Bool.and_eq_true, List.map_cons] at h ⊢
      refine ⟨by rw [Text.isAlpha_toLower]; exact h.1, ?_⟩
      refine List.all_eq_true.mpr ?_
      intro d hd
      rw [← List.map_cons] at hd
      rcases List.mem_map.mp hd with ⟨e, he, rfl⟩
      exact schemeChar_toLower (List.all_eq_true.mp h.2 e he)

theorem schemeChar_kept (h : schemeChar c = true) :
    c ≠ ':' ∧ c ≠ '/' ∧ c ∉ bytesToRemove := by
  refine ⟨?_, ?_, ?_⟩
  · rintro rfl
    exact absurd h (by decide)
  · rintro rfl
    exact absurd h (by decide)
  · intro hmem
    simp only [bytesToRemove, List.mem_cons, List.not_mem_nil, or_false] at hmem
    rcases hmem with rfl | rfl | rfl <;> exact absurd h (by decide)

theorem mem_clean (h : c ∈ clean text) : c ∉ bytesToRemove := by
  simpa using (List.mem_filter.mp h).2

theorem mem_cutScheme (h : c ∈ (cutScheme text).2) : c ∈ text := by
  unfold cutScheme at h
  split at h
  · exact mem_of_after h
  · exact h

theorem mem_cutNetloc (h : c ∈ (cutNetloc text).1 ++ (cutNetloc text).2) : c ∈ text := by
  unfold cutNetloc at h
  split at h
  · rw [List.takeWhile_append_dropWhile] at h
    exact List.mem_cons_of_mem _ (List.mem_cons_of_mem _ h)
  · exact h

theorem isScheme_schemeChar (h : isScheme scheme = true) :
    forall c, c ∈ scheme -> schemeChar c = true := by
  cases scheme with
  | nil => cases h
  | cons first rest =>
      simp only [isScheme, Bool.and_eq_true] at h
      exact List.all_eq_true.mp h.2

theorem cutScheme_shape (text : List Char) : (cutScheme text).1 = [] ∨
    isScheme (cutScheme text).1 = true ∧
      (cutScheme text).1.map Char.toLower = (cutScheme text).1 := by
  unfold cutScheme
  split
  · next h =>
      refine Or.inr ⟨isScheme_toLower h.2, ?_⟩
      rw [List.map_map]
      refine List.map_congr_left ?_
      intro c _
      exact Text.toLower_toLower c
  · exact Or.inl rfl

theorem cutNetloc_ends (text : List Char) :
    forall c, c ∈ (cutNetloc text).1 -> endsNetloc c = false := by
  intro c hc
  unfold cutNetloc at hc
  split at hc
  · have hends := List.mem_takeWhile_imp hc
    simpa using hends
  · cases hc

theorem cutNetloc_rooted (h : (cutNetloc text).1 ≠ []) :
    (cutNetloc text).2 = [] ∨ exists c more, (cutNetloc text).2 = c :: more ∧
      endsNetloc c = true := by
  unfold cutNetloc at h ⊢
  split at h
  · next rest =>
      dsimp only
      cases hdrop : rest.dropWhile (fun c => !endsNetloc c) with
      | nil => exact Or.inl rfl
      | cons c more =>
          have hhead := List.head?_dropWhile_not (fun c => !endsNetloc c) rest
          rw [hdrop] at hhead
          exact Or.inr ⟨c, more, rfl, by simpa using hhead⟩
  · exact absurd rfl h

theorem parts_shape (text : List Char) : Shape (parts text) where
  scheme := cutScheme_shape _
  netloc := cutNetloc_ends _
  path := ⟨not_mem_before _ _, fun h => not_mem_before _ _ (mem_of_before h)⟩
  rooted := by
    intro hne
    rcases cutNetloc_rooted hne with hnil | ⟨c, more, hcons, hends⟩
    · left
      show before '?' (before '#' (cutNetloc (cutScheme (clean text)).2).2) = []
      rw [hnil]
      rfl
    · show before '?' (before '#' (cutNetloc (cutScheme (clean text)).2).2) = [] ∨
        (before '?' (before '#' (cutNetloc (cutScheme (clean text)).2).2)).head? = some '/'
      rw [hcons]
      simp only [endsNetloc, Bool.or_eq_true, beq_iff_eq] at hends
      rcases hends with (rfl | rfl) | rfl
      · right
        simp [before]
      · left
        simp [before]
      · left
        simp [before]
  kept := by
    intro c hc
    rcases List.mem_append.mp hc with hscheme | hrest
    · rcases cutScheme_shape (clean text) with hnil | ⟨hscheme', _⟩
      · have hempty : (parts text).scheme = [] := hnil
        rw [hempty] at hscheme
        cases hscheme
      · exact (schemeChar_kept (isScheme_schemeChar hscheme' c hscheme)).2.2
    · apply @mem_clean c text
      apply mem_cutScheme
      apply mem_cutNetloc
      rcases List.mem_append.mp hrest with hnetloc | hpath
      · exact List.mem_append_left _ hnetloc
      · exact List.mem_append_right _ (mem_of_before (mem_of_before hpath))

/-!
## Reading a written URL
-/

theorem clean_of {c : Char} (hhead : 32 < c.toNat)
    (hkept : forall d, d ∈ c :: rest -> d ∉ bytesToRemove) : clean (c :: rest) = c :: rest := by
  have hnot : ¬c.toNat ≤ 32 := by omega
  rw [clean, List.dropWhile_cons, if_neg (by simpa using hnot)]
  refine List.filter_eq_self.mpr ?_
  intro d hd
  exact decide_eq_true (hkept d hd)

theorem isAlpha_visible (h : c.isAlpha = true) : 32 < c.toNat := by
  have hrange := Text.isAlpha_iff.mp h
  omega

theorem cutScheme_write (hscheme : isScheme scheme = true)
    (hlower : scheme.map Char.toLower = scheme) :
    cutScheme (scheme ++ ':' :: rest) = (scheme, rest) := by
  have hcolon : ':' ∉ scheme := by
    intro hmem
    exact (schemeChar_kept (isScheme_schemeChar hscheme _ hmem)).1 rfl
  unfold cutScheme
  rw [before_append hcolon, after_append hcolon, if_pos ⟨by simp, hscheme⟩, hlower]

theorem parts_scheme (hscheme : isScheme scheme = true)
    (hlower : scheme.map Char.toLower = scheme)
    (hkept : forall c, c ∈ rest -> c ∉ bytesToRemove) :
    parts (scheme ++ ':' :: rest) =
      { scheme := scheme
        netloc := (cutNetloc rest).1
        path := before '?' (before '#' (cutNetloc rest).2)
        query := after '?' (before '#' (cutNetloc rest).2)
        fragment := after '#' (cutNetloc rest).2 } := by
  have hclean : clean (scheme ++ ':' :: rest) = scheme ++ ':' :: rest := by
    cases scheme with
    | nil => cases hscheme
    | cons first more =>
        have hchars := isScheme_schemeChar hscheme
        simp only [isScheme, Bool.and_eq_true] at hscheme
        apply clean_of (isAlpha_visible hscheme.1)
        intro d hd
        have hmem : d ∈ (first :: more) ++ ':' :: rest := hd
        rcases List.mem_append.mp hmem with hin | hin
        · exact (schemeChar_kept (hchars d hin)).2.2
        · rcases List.mem_cons.mp hin with rfl | hmem
          · decide
          · exact hkept d hmem
  unfold parts
  rw [hclean, cutScheme_write hscheme hlower]

theorem cutNetloc_write (hnetloc : forall c, c ∈ netloc -> endsNetloc c = false)
    (hrest : rest = [] ∨ exists c more, rest = c :: more ∧ endsNetloc c = true) :
    cutNetloc ('/' :: '/' :: (netloc ++ rest)) = (netloc, rest) := by
  have hkept : forall c, c ∈ netloc -> (!endsNetloc c) = true := by
    intro c hc
    rw [hnetloc c hc]
    rfl
  have hcut : cutNetloc ('/' :: '/' :: (netloc ++ rest)) =
      ((netloc ++ rest).takeWhile fun c => !endsNetloc c,
        (netloc ++ rest).dropWhile fun c => !endsNetloc c) := rfl
  rw [hcut, List.takeWhile_append_of_pos hkept, List.dropWhile_append_of_pos hkept]
  rcases hrest with rfl | ⟨c, more, rfl, hends⟩
  · simp
  · simp [hends]

theorem parts_write (hscheme : isScheme scheme = true)
    (hlower : scheme.map Char.toLower = scheme)
    (hnetloc : forall c, c ∈ netloc -> endsNetloc c = false)
    (hpath : '?' ∉ path ∧ '#' ∉ path) (hrooted : path = [] ∨ path.head? = some '/')
    (hkept : forall c, c ∈ netloc ++ path ++ fragment -> c ∉ bytesToRemove) :
    parts (scheme ++ ':' :: '/' :: '/' :: (netloc ++ (path ++ '#' :: fragment))) =
      { scheme := scheme, netloc := netloc, path := path, query := [], fragment := fragment } := by
  have hrest : path ++ '#' :: fragment = [] ∨ exists c more,
      path ++ '#' :: fragment = c :: more ∧ endsNetloc c = true := by
    right
    cases path with
    | nil => exact ⟨'#', fragment, rfl, by decide⟩
    | cons c more =>
        rcases hrooted with hnil | hhead
        · cases hnil
        · rw [List.head?_cons, Option.some.injEq] at hhead
          exact ⟨c, more ++ '#' :: fragment, rfl, by rw [hhead]; decide⟩
  have hchars : forall c, c ∈ '/' :: '/' :: (netloc ++ (path ++ '#' :: fragment)) ->
      c ∉ bytesToRemove := by
    intro c hc
    simp only [List.mem_cons, List.mem_append] at hc
    rcases hc with rfl | rfl | hin | hin | rfl | hin
    · decide
    · decide
    · exact hkept c (by simp [hin])
    · exact hkept c (by simp [hin])
    · decide
    · exact hkept c (by simp [hin])
  rw [parts_scheme hscheme hlower hchars, cutNetloc_write hnetloc hrest,
    before_append hpath.2, after_append hpath.2, before_absent hpath.1, after_absent hpath.1]

/-!
## Texts cut short
-/

def netlocOf (text : List Char) : List Char := (cutNetloc (cutScheme text).2).1

theorem parts_netloc (text : List Char) : (parts text).netloc = netlocOf (clean text) := rfl

theorem parts_query_absent (h : '?' ∉ text) : (parts text).query = [] := by
  apply after_absent
  intro hmem
  apply h
  have hclean : '?' ∈ clean text :=
    mem_cutScheme (mem_cutNetloc (List.mem_append_right _ (mem_of_before hmem)))
  exact (List.dropWhile_sublist _).subset (List.mem_filter.mp hclean).1

def CutOff (tail : List Char) : Prop :=
  tail = [] ∨ exists c more, tail = c :: more ∧ (c = '?' ∨ c = '#')

theorem before_append_of_mem {sep : Char} {tail : List Char} (h : sep ∈ first) :
    before sep (first ++ tail) = before sep first ∧
      after sep (first ++ tail) = after sep first ++ tail := by
  have hsplit := before_after h
  have hnot := not_mem_before sep first
  have hlong : first ++ tail = before sep first ++ sep :: (after sep first ++ tail) := by
    rw [← List.cons_append, ← List.append_assoc, ← hsplit]
  rw [hlong]
  exact ⟨before_append hnot, after_append hnot⟩

theorem not_isScheme_of_mem {c : Char} (hmem : c ∈ scheme) (h : schemeChar c = false) :
    isScheme scheme = false := by
  cases hscheme : isScheme scheme with
  | false => rfl
  | true =>
      rw [isScheme_schemeChar hscheme c hmem] at h
      cases h

theorem cutScheme_cutOff {tail : List Char} (htail : CutOff tail) :
    cutScheme (first ++ tail) = ((cutScheme first).1, (cutScheme first).2 ++ tail) := by
  by_cases hcolon : ':' ∈ first
  · rcases @before_append_of_mem first ':' tail hcolon with ⟨hbefore, hafter⟩
    unfold cutScheme
    rw [hbefore, hafter]
    by_cases hscheme : isScheme (before ':' first) = true
    · rw [if_pos ⟨List.mem_append_left _ hcolon, hscheme⟩, if_pos ⟨hcolon, hscheme⟩]
    · rw [if_neg (fun h => hscheme h.2), if_neg (fun h => hscheme h.2)]
  · have hnone : cutScheme first = ([], first) := if_neg fun h => hcolon h.1
    have hlong : cutScheme (first ++ tail) = ([], first ++ tail) := by
      apply if_neg
      rintro ⟨hmem, hscheme⟩
      rcases htail with rfl | ⟨c, more, rfl, hc⟩
      · rw [List.append_nil] at hmem
        exact hcolon hmem
      · have hin : c ∈ before ':' (first ++ c :: more) := by
          have hne : forall d, d ∈ first -> decide (d ≠ ':') = true := by
            intro d hd
            exact decide_eq_true (ne_of_mem_of_not_mem hd hcolon)
          rw [before, List.takeWhile_append_of_pos hne]
          apply List.mem_append_right
          rcases hc with rfl | rfl
          · simp
          · simp
        have hbad : schemeChar c = false := by
          rcases hc with rfl | rfl <;> decide
        rw [not_isScheme_of_mem hin hbad] at hscheme
        cases hscheme
    rw [hlong, hnone]

theorem takeWhile_cutOff {tail : List Char} (htail : CutOff tail) :
    (first ++ tail).takeWhile (fun c => !endsNetloc c) =
      first.takeWhile fun c => !endsNetloc c := by
  induction first with
  | nil =>
      rcases htail with rfl | ⟨c, more, rfl, hc⟩
      · rfl
      · rcases hc with rfl | rfl
        · rfl
        · rfl
  | cons c rest ih =>
      rw [List.cons_append, List.takeWhile_cons, List.takeWhile_cons, ih]

theorem dropWhile_cutOff {tail : List Char} (htail : CutOff tail) :
    (first ++ tail).dropWhile (fun c => !endsNetloc c) =
      first.dropWhile (fun c => !endsNetloc c) ++ tail := by
  have hsplit := List.takeWhile_append_dropWhile (p := fun c => !endsNetloc c) (l := first ++ tail)
  have hfirst := List.takeWhile_append_dropWhile (p := fun c => !endsNetloc c) (l := first)
  rw [takeWhile_cutOff htail] at hsplit
  refine @List.append_cancel_left _ (first.takeWhile fun c => !endsNetloc c) _ _ ?_
  rw [hsplit, ← List.append_assoc, hfirst]

theorem cutNetloc_cutOff {tail : List Char} (htail : CutOff tail) :
    cutNetloc (first ++ tail) = ((cutNetloc first).1, (cutNetloc first).2 ++ tail) := by
  have hend : forall c more, tail = c :: more -> c ≠ '/' := by
    intro c more heq
    rcases htail with rfl | ⟨d, rest, rfl, hd⟩
    · cases heq
    · cases heq
      rcases hd with rfl | rfl <;> decide
  rcases first with _ | ⟨a, _ | ⟨b, rest⟩⟩
  · rw [List.nil_append]
    unfold cutNetloc
    split
    · next rest => exact absurd rfl (hend _ _ rfl)
    · rfl
  · rw [List.singleton_append]
    have hnone : cutNetloc [a] = ([], [a]) := by
      unfold cutNetloc
      split
      · next heq => cases heq
      · rfl
    rw [hnone]
    unfold cutNetloc
    split
    · next rest heq =>
        cases heq
        exact absurd rfl (hend _ _ rfl)
    · rfl
  · rw [List.cons_append, List.cons_append]
    by_cases hslash : a = '/' ∧ b = '/'
    · rcases hslash with ⟨rfl, rfl⟩
      exact Prod.ext (takeWhile_cutOff htail) (dropWhile_cutOff htail)
    · have hnot : forall text : List Char, cutNetloc (a :: b :: text) = ([], a :: b :: text) := by
        intro text
        unfold cutNetloc
        split
        · next heq =>
            cases heq
            exact absurd ⟨rfl, rfl⟩ hslash
        · rfl
      rw [hnot, hnot]
      rfl

theorem path_cutOff {tail : List Char} (hquery : '?' ∉ first) (hhash : '#' ∉ first)
    (htail : CutOff tail) : before '?' (before '#' (first ++ tail)) = first := by
  rcases htail with rfl | ⟨c, more, rfl, hc⟩
  · rw [List.append_nil, before_absent hhash, before_absent hquery]
  · rcases hc with rfl | rfl
    · by_cases hmore : '#' ∈ more
      · have hcut : first ++ '?' :: more =
            (first ++ '?' :: before '#' more) ++ '#' :: after '#' more := by
          rw [List.append_assoc, List.cons_append, ← before_after hmore]
        have hnot : '#' ∉ first ++ '?' :: before '#' more := by
          simp [hhash, not_mem_before]
        rw [hcut, before_append hnot, before_append hquery]
      · have hnot : '#' ∉ first ++ '?' :: more := by simp [hhash, hmore]
        rw [before_absent hnot, before_append hquery]
    · rw [before_append hhash, before_absent hquery]

theorem clean_append {tail : List Char} (htail : CutOff tail) :
    clean (first ++ tail) = clean first ++ tail.filter (· ∉ bytesToRemove) := by
  have hdrop : (tail.dropWhile fun c => decide (c.toNat ≤ 32)) = tail := by
    rcases htail with rfl | ⟨c, more, rfl, hc⟩
    · rfl
    · rcases hc with rfl | rfl
      · rfl
      · rfl
  rw [clean, List.dropWhile_append, hdrop, clean]
  split
  · next hempty =>
      rw [List.isEmpty_iff.mp hempty]
      rfl
  · rw [List.filter_append]

theorem cutOff_filter {tail : List Char} (h : CutOff tail) :
    CutOff (tail.filter (· ∉ bytesToRemove)) := by
  rcases h with rfl | ⟨c, more, rfl, hc⟩
  · exact Or.inl rfl
  · right
    rcases hc with rfl | rfl
    · exact ⟨'?', more.filter (· ∉ bytesToRemove), rfl, Or.inl rfl⟩
    · exact ⟨'#', more.filter (· ∉ bytesToRemove), rfl, Or.inr rfl⟩

theorem parts_append {tail : List Char} (hquery : '?' ∉ first) (hhash : '#' ∉ first)
    (htail : CutOff tail) :
    (parts (first ++ tail)).scheme = (cutScheme (clean first)).1 ∧
      (parts (first ++ tail)).netloc = (cutNetloc (cutScheme (clean first)).2).1 ∧
      (parts (first ++ tail)).path = (cutNetloc (cutScheme (clean first)).2).2 := by
  have hscheme := @cutScheme_cutOff (clean first) _ (cutOff_filter htail)
  have hnetloc := @cutNetloc_cutOff (cutScheme (clean first)).2 _ (cutOff_filter htail)
  have hmem : forall c, c ∈ (cutNetloc (cutScheme (clean first)).2).2 -> c ∈ first := by
    intro c hc
    have hclean := mem_cutScheme (mem_cutNetloc (List.mem_append_right _ hc))
    exact List.dropWhile_subset _ (List.mem_of_mem_filter hclean)
  have hpath := path_cutOff (fun h => hquery (hmem _ h)) (fun h => hhash (hmem _ h))
    (cutOff_filter htail)
  unfold parts
  rw [clean_append htail, hscheme]
  dsimp only
  rw [hnetloc]
  exact ⟨rfl, rfl, hpath⟩

theorem parts_cut (text : List Char) {tail : List Char} (htail : CutOff tail) :
    (parts (before '#' (before '?' text) ++ tail)).scheme = (parts text).scheme ∧
      (parts (before '#' (before '?' text) ++ tail)).netloc = (parts text).netloc ∧
      (parts (before '#' (before '?' text) ++ tail)).path = (parts text).path := by
  have hcut : exists rest, CutOff rest ∧ text = before '#' (before '?' text) ++ rest := by
    by_cases hhash : '#' ∈ before '?' text
    · by_cases hquery : '?' ∈ text
      · refine ⟨'#' :: after '#' (before '?' text) ++ '?' :: after '?' text,
          Or.inr ⟨'#', _, rfl, Or.inr rfl⟩, ?_⟩
        rw [← List.append_assoc, ← before_after hhash, ← before_after hquery]
      · refine ⟨'#' :: after '#' (before '?' text), Or.inr ⟨'#', _, rfl, Or.inr rfl⟩, ?_⟩
        rw [← before_after hhash, before_absent hquery]
    · rw [before_absent hhash]
      by_cases hquery : '?' ∈ text
      · exact ⟨'?' :: after '?' text, Or.inr ⟨'?', _, rfl, Or.inl rfl⟩, before_after hquery⟩
      · exact ⟨[], Or.inl rfl, by rw [before_absent hquery, List.append_nil]⟩
  rcases hcut with ⟨rest, hrest, heq⟩
  have hquery : '?' ∉ before '#' (before '?' text) := fun h =>
    not_mem_before '?' text (mem_of_before h)
  have hhash : '#' ∉ before '#' (before '?' text) := not_mem_before _ _
  have htext := parts_append hquery hhash hrest
  rw [← heq] at htext
  have hother := parts_append hquery hhash htail
  exact ⟨hother.1.trans htext.1.symm, hother.2.1.trans htext.2.1.symm,
    hother.2.2.trans htext.2.2.symm⟩

end Url
end Lib
end MightyColab
