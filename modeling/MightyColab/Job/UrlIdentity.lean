import MightyColab.Lib.UrlWrite

/-!
# The identity of a URL

What stands for a URL where its credentials must not: its canonical form, its handle in
logs, and the reference that a plan file holds in place of a signed URL.
-/

namespace MightyColab
namespace Job

open Lib
open Url (Unicode Parts)

def isDigestChar (c : Char) : Bool := c.isDigit || (decide ('a' ≤ c) && decide (c ≤ 'f'))

def isDigest (text : List Char) : Bool := text.length == 64 && text.all isDigestChar

/-- What the handling of URLs takes from the standard library. -/
structure UrlTools where
  unicode : Unicode
  /-- `hashlib.sha256(text.encode("utf-8")).hexdigest()`. -/
  sha256 : String -> String
  digest : forall text, isDigest (sha256 text).toList = true

def asciiTools (digests : List (String × String))
    (h : forall item, item ∈ digests -> isDigest item.2.toList = true) : UrlTools where
  unicode := Url.asciiUnicode
  sha256 text := (digests.lookup text).getD (String.ofList (List.replicate 64 '0'))
  digest := by
    intro text
    cases hlookup : digests.lookup text with
    | none =>
        rw [Option.getD_none, String.toList_ofList]
        decide
    | some digest =>
        rw [List.lookup_eq_some_iff] at hlookup
        rcases hlookup with ⟨before, after, heq, _⟩
        exact h (text, digest) (by rw [heq]; simp)

theorem noDigests (item : String × String) (h : item ∈ ([] : List (String × String))) :
    isDigest item.2.toList = true := False.elim (List.not_mem_nil h)

namespace UrlTools

variable (tools : UrlTools)

def urlsplit (url : String) : Option Parts := Url.urlsplit tools.unicode url.toList

/-- The text of a URL that is made of these parts, without user, query and fragment. -/
def publicText (p : Parts) : List Char :=
  p.scheme ++ ':' :: '/' :: '/' ::
    (Url.writeNetloc ((Url.hostname tools.unicode p.netloc).getD []) (Url.port p.netloc) ++
      p.path)

def canonicalUrl (url : String) : String :=
  match tools.urlsplit url with
  | none => String.ofList (Url.before '#' (Url.before '?' url.toList))
  | some p => String.ofList (tools.publicText p)

def urlId (url : String) : String :=
  tools.canonicalUrl url ++ "#" ++ String.ofList ((tools.sha256 url).toList.take 12)

def hasUrlQuery (url : String) : Bool :=
  match tools.urlsplit url with
  | none => url.toList.contains '?'
  | some p => !p.query.isEmpty

def secretFragmentPrefix : String := "mighty-colab-secret-sha256="

def redactedUrl (url : String) : String :=
  tools.canonicalUrl url ++ "#" ++ secretFragmentPrefix ++ tools.sha256 url

def isRedactedUrl (value : String) : Bool :=
  match tools.urlsplit value with
  | none => false
  | some p =>
      p.query.isEmpty && secretFragmentPrefix.toList.isPrefixOf p.fragment &&
        isDigest (p.fragment.drop secretFragmentPrefix.toList.length)

/-!
## The public text
-/

variable {tools} {url : String} {p : Parts}

theorem urlsplit_eq (h : tools.urlsplit url = some p) :
    p = Url.parts url.toList ∧ Url.bracketsOk p.netloc = true ∧
      Url.netlocOk tools.unicode p.netloc = true := by
  unfold urlsplit Url.urlsplit at h
  split at h
  · next hok =>
      cases h
      exact ⟨rfl, Bool.and_eq_true_iff.mp hok⟩
  · cases h

theorem urlsplit_shape (h : tools.urlsplit url = some p) : Url.Shape p := by
  rw [(urlsplit_eq h).1]
  exact Url.parts_shape _

def hostText (unicode : Unicode) (p : Parts) : List Char :=
  (Url.hostname unicode p.netloc).getD []

theorem hostText_eq (unicode : Unicode) (p : Parts) :
    hostText unicode p = Url.lowerHost unicode (Url.hostinfo p.netloc).1 := by
  unfold hostText Url.hostname
  split
  · next hnil =>
      rw [hnil]
      simp [Url.lowerHost, Url.lower_nil]
  · rfl

theorem publicNetloc_plain {c : Char} (hplain : Url.Plain c)
    (hother : c ≠ '[' ∧ c ≠ ']' ∧ c ≠ ':' ∧ c.isDigit = false)
    (h : c ∈ Url.writeNetloc (hostText tools.unicode p) (Url.port p.netloc)) :
    c ∈ p.netloc := by
  rcases Url.mem_writeNetloc h with hhost | hc | hc | hc | hc
  · rw [hostText_eq, Url.mem_lowerHost hplain] at hhost
    exact Url.mem_hostinfo hhost
  · exact absurd hc hother.1
  · exact absurd hc hother.2.1
  · exact absurd hc hother.2.2.1
  · rw [hother.2.2.2] at hc
    cases hc

theorem publicNetloc_ends (h : Url.Shape p) :
    forall c, c ∈ Url.writeNetloc (hostText tools.unicode p) (Url.port p.netloc) ->
      Url.endsNetloc c = false := by
  intro c hc
  cases hends : Url.endsNetloc c with
  | false => rfl
  | true =>
      have hmem : c ∈ p.netloc := by
        simp only [Url.endsNetloc, Bool.or_eq_true, beq_iff_eq] at hends
        rcases hends with (rfl | rfl) | rfl
        · exact publicNetloc_plain ⟨by decide, by decide⟩ (by decide) hc
        · exact publicNetloc_plain ⟨by decide, by decide⟩ (by decide) hc
        · exact publicNetloc_plain ⟨by decide, by decide⟩ (by decide) hc
      rw [h.netloc c hmem] at hends
      cases hends

theorem publicNetloc_kept (h : Url.Shape p) :
    forall c, c ∈ Url.writeNetloc (hostText tools.unicode p) (Url.port p.netloc) ->
      c ∉ Url.bytesToRemove := by
  intro c hc hremoved
  have hmem : c ∈ p.netloc := by
    have hcases := hremoved
    simp only [Url.bytesToRemove, List.mem_cons, List.not_mem_nil, or_false] at hcases
    rcases hcases with rfl | rfl | rfl
    · exact publicNetloc_plain ⟨by decide, by decide⟩ (by decide) hc
    · exact publicNetloc_plain ⟨by decide, by decide⟩ (by decide) hc
    · exact publicNetloc_plain ⟨by decide, by decide⟩ (by decide) hc
  exact h.kept c (List.mem_append_right _ (List.mem_append_left _ hmem)) hremoved

theorem canonicalUrl_some (h : tools.urlsplit url = some p) :
    (tools.canonicalUrl url).toList = p.scheme ++ ':' :: '/' :: '/' ::
      (Url.writeNetloc (hostText tools.unicode p) (Url.port p.netloc) ++ p.path) := by
  simp only [canonicalUrl, h, String.toList_ofList]
  rfl

theorem canonicalUrl_none (h : tools.urlsplit url = none) :
    (tools.canonicalUrl url).toList = Url.before '#' (Url.before '?' url.toList) := by
  simp only [canonicalUrl, h, String.toList_ofList]

/-!
## References
-/

def referenceFragment (tools : UrlTools) (url : String) : List Char :=
  secretFragmentPrefix.toList ++ (tools.sha256 url).toList

theorem redactedUrl_toList (tools : UrlTools) (url : String) :
    (tools.redactedUrl url).toList =
      (tools.canonicalUrl url).toList ++ '#' :: tools.referenceFragment url := by
  simp [redactedUrl, referenceFragment, String.toList_append]

theorem digest_plain {c : Char} (h : isDigestChar c = true) :
    c.isAlphanum = true := by
  unfold isDigestChar at h
  rcases Bool.or_eq_true_iff.mp h with hdigit | hletter
  · simp [Char.isAlphanum, hdigit]
  · simp only [Bool.and_eq_true, decide_eq_true_eq] at hletter
    have hfrom : 97 ≤ c.toNat := UInt32.le_iff_toNat_le.mp hletter.1
    have hto : c.toNat ≤ 102 := UInt32.le_iff_toNat_le.mp hletter.2
    have halpha : c.isAlpha = true := Text.isAlpha_iff.mpr (Or.inr ⟨hfrom, by omega⟩)
    simp [Char.isAlphanum, halpha]

theorem referenceFragment_chars {c : Char} (h : c ∈ tools.referenceFragment url) :
    c.isAlphanum = true ∨ c = '-' ∨ c = '=' := by
  rcases List.mem_append.mp h with hinitial | hdigest
  · have hall : secretFragmentPrefix.toList.all
        (fun d => d.isAlphanum || d == '-' || d == '=') = true := by decide
    have hc := List.all_eq_true.mp hall c hinitial
    simpa [or_assoc] using hc
  · have hchars := tools.digest url
    simp only [isDigest, Bool.and_eq_true] at hchars
    exact Or.inl (digest_plain (List.all_eq_true.mp hchars.2 c hdigest))

theorem referenceFragment_not {c : Char} (hother : c.isAlphanum = false ∧ c ≠ '-' ∧ c ≠ '=') :
    c ∉ tools.referenceFragment url := by
  intro h
  rcases referenceFragment_chars h with hc | hc | hc
  · rw [hother.1] at hc
    cases hc
  · exact hother.2.1 hc
  · exact hother.2.2 hc

theorem referenceFragment_kept :
    forall c, c ∈ tools.referenceFragment url -> c ∉ Url.bytesToRemove := by
  intro c hc hremoved
  simp only [Url.bytesToRemove, List.mem_cons, List.not_mem_nil, or_false] at hremoved
  rcases hremoved with rfl | rfl | rfl <;> exact referenceFragment_not (by decide) hc

theorem redactedUrl_noQuestion : '?' ∉ (tools.redactedUrl url).toList := by
  rw [redactedUrl_toList]
  intro hmem
  rcases List.mem_append.mp hmem with hcanonical | hfragment
  · cases hsplit : tools.urlsplit url with
    | none =>
        rw [canonicalUrl_none hsplit] at hcanonical
        exact Url.not_mem_before _ _ (Url.mem_of_before hcanonical)
    | some p =>
        have hshape := urlsplit_shape hsplit
        rw [canonicalUrl_some hsplit] at hcanonical
        simp only [List.mem_append, List.mem_cons] at hcanonical
        rcases hcanonical with hin | habs | habs | habs | hin | hin
        · rcases hshape.scheme with hnil | ⟨hscheme, _⟩
          · rw [hnil] at hin
            cases hin
          · exact absurd (Url.isScheme_schemeChar hscheme _ hin) (by decide)
        · exact absurd habs (by decide)
        · exact absurd habs (by decide)
        · exact absurd habs (by decide)
        · exact absurd (publicNetloc_ends hshape _ hin) (by decide)
        · exact hshape.path.1 hin
  · rcases List.mem_cons.mp hfragment with habs | hin
    · exact absurd habs (by decide)
    · exact referenceFragment_not (by decide) hin

/-- A URL that the plan's checks let through: it has a scheme and a host. -/
structure Addressed (tools : UrlTools) (url : String) (p : Parts) : Prop where
  split : tools.urlsplit url = some p
  scheme : p.scheme ≠ []
  host : Url.hostname tools.unicode p.netloc ≠ none

theorem Addressed.hostinfo (h : Addressed tools url p) : (Url.hostinfo p.netloc).1 ≠ [] := by
  intro hnil
  apply h.host
  rw [Url.hostname, if_pos hnil]

theorem Addressed.netloc (h : Addressed tools url p) : p.netloc ≠ [] := by
  intro hnil
  apply h.hostinfo
  rw [hnil]
  rfl

theorem parts_redactedUrl (h : Addressed tools url p) :
    Url.parts (tools.redactedUrl url).toList =
      { scheme := p.scheme
        netloc := Url.writeNetloc (hostText tools.unicode p) (Url.port p.netloc)
        path := p.path
        query := []
        fragment := tools.referenceFragment url } := by
  have hshape := urlsplit_shape h.split
  have htext : (tools.redactedUrl url).toList = p.scheme ++ ':' :: '/' :: '/' ::
      (Url.writeNetloc (hostText tools.unicode p) (Url.port p.netloc) ++
        (p.path ++ '#' :: tools.referenceFragment url)) := by
    rw [redactedUrl_toList, canonicalUrl_some h.split]
    simp
  rcases hshape.scheme with hnil | ⟨hscheme, hlower⟩
  · exact absurd hnil h.scheme
  · rw [htext]
    apply Url.parts_write hscheme hlower (publicNetloc_ends hshape) hshape.path
      (hshape.rooted h.netloc)
    intro c hc
    rcases List.mem_append.mp hc with hin | hfragment
    · rcases List.mem_append.mp hin with hnetloc | hpath
      · exact publicNetloc_kept hshape c hnetloc
      · exact hshape.kept c (List.mem_append_right _ (List.mem_append_right _ hpath))
    · exact referenceFragment_kept c hfragment

/-- The URL's host is read back from its reference. -/
def Rereads (tools : UrlTools) (url : String) : Prop :=
  forall p, tools.urlsplit url = some p -> Url.Rereads (hostText tools.unicode p)

theorem hostText_shape (h : Addressed tools url p) : Url.HostShape (hostText tools.unicode p) := by
  rw [hostText_eq]
  exact (Url.hostinfo_shape (urlsplit_eq h.split).2.1).lower

theorem urlsplit_redactedUrl (h : Addressed tools url p) :
    tools.urlsplit (tools.redactedUrl url) =
      if Url.Rereads (hostText tools.unicode p) then
        some
          { scheme := p.scheme
            netloc := Url.writeNetloc (hostText tools.unicode p) (Url.port p.netloc)
            path := p.path
            query := []
            fragment := tools.referenceFragment url }
      else none := by
  have hbrackets := @Url.bracketsOk_writeNetloc _ (Url.port p.netloc) (hostText_shape h)
  have hnetloc : Url.netlocOk tools.unicode
      (Url.writeNetloc (hostText tools.unicode p) (Url.port p.netloc)) = true := by
    rw [hostText_eq]
    exact Url.netlocOk_writeNetloc (urlsplit_eq h.split).2.2 (urlsplit_shape h.split).netloc
      fun c hc => Url.mem_hostinfo hc
  unfold urlsplit Url.urlsplit
  rw [parts_redactedUrl h]
  simp only [hnetloc, Bool.and_true, hbrackets]

theorem referenceFragment_reference (tools : UrlTools) (url : String) :
    (secretFragmentPrefix.toList.isPrefixOf (tools.referenceFragment url) &&
      isDigest ((tools.referenceFragment url).drop secretFragmentPrefix.toList.length)) =
        true := by
  have hinitial : secretFragmentPrefix.toList.isPrefixOf (tools.referenceFragment url) = true :=
    List.isPrefixOf_iff_prefix.mpr (List.prefix_append _ _)
  rw [hinitial, referenceFragment, List.drop_left, tools.digest]
  rfl

theorem isRedactedUrl_none (h : tools.urlsplit url = none) : tools.isRedactedUrl url = false := by
  unfold isRedactedUrl
  rw [h]

theorem isRedactedUrl_redactedUrl (h : Addressed tools url p) :
    tools.isRedactedUrl (tools.redactedUrl url) = true <->
      Url.Rereads (hostText tools.unicode p) := by
  have href := referenceFragment_reference tools url
  unfold isRedactedUrl
  rw [urlsplit_redactedUrl h]
  split
  · next hnone =>
      split at hnone
      · cases hnone
      · next hnot => simp [hnot]
  · next q hsome =>
      split at hsome
      · next hreads =>
          cases hsome
          simp only [List.isEmpty_nil, Bool.true_and, href, hreads]
      · cases hsome

theorem canonicalUrl_redactedUrl (h : Addressed tools url p)
    (hreads : Url.Rereads (hostText tools.unicode p)) :
    tools.canonicalUrl (tools.redactedUrl url) = tools.canonicalUrl url := by
  have hsplit := urlsplit_redactedUrl h
  rw [if_pos hreads] at hsplit
  have hshape := hostText_shape h
  have hinfo := @Url.hostinfo_writeNetloc _ (Url.port p.netloc) hshape hreads
  have hport : Url.port (Url.writeNetloc (hostText tools.unicode p) (Url.port p.netloc)) =
      Url.port p.netloc :=
    Url.port_writeNetloc hshape hreads fun n hn => Url.port_le hn
  apply String.toList_inj.mp
  rw [canonicalUrl_some hsplit, canonicalUrl_some h.split]
  dsimp only
  rw [hport, hostText_eq]
  dsimp only
  rw [hinfo, hostText_eq, Url.lowerHost_lowerHost]

end UrlTools
end Job
end MightyColab
