import MightyColab.Job.CredentialScan
import Mathlib.Data.List.Induction

/-!
# What the credential scan sees

The scan reads one URL after the other: a URL begins at the first scheme after the one
before it, has one query, and goes on to a delimiter or to the `#` after its query. What
it refuses is a recognised key right after the `?` of a query or after a separator in one.
A `?` that comes later in the same URL begins nothing, so a key right after it is missed.
-/

namespace MightyColab
namespace Job

open Lib

namespace CredentialScan

/-!
## The file in blocks
-/

def readBlock (s : Scanner) (block : List UInt8) : Option Scanner := block.foldlM scanByte s

/-- `_reject_credential_content` on the blocks that it reads: whether it refuses them. -/
def rejectsBlocks (blocks : List (List UInt8)) : Bool := (blocks.foldlM readBlock {}).isNone

theorem rejectsBlocks_eq (blocks : List (List UInt8)) :
    rejectsBlocks blocks = !credentialFree blocks.flatten := by
  have hflatten : forall s : Scanner,
      blocks.foldlM readBlock s = blocks.flatten.foldlM scanByte s := by
    induction blocks with
    | nil => exact fun s => rfl
    | cons block rest ih =>
        intro s
        rw [List.foldlM_cons, List.flatten_cons, List.foldlM_append]
        exact congrArg (readBlock s block >>= ·) (funext ih)
  unfold rejectsBlocks credentialFree
  rw [hflatten, Option.not_isSome]

/-!
## Where the URLs are
-/

inductive Part where
  | outside
  /-- In a URL whose query has not begun. -/
  | path
  | query
  deriving DecidableEq, Repr

structure Reading where
  /-- The last bytes outside of URLs. -/
  recent : List UInt8 := []
  part : Part := .outside

def Reading.byte (r : Reading) (byte : UInt8) : Reading :=
  match r.part with
  | .outside =>
      let s := plainByte { recent := r.recent } byte
      { recent := s.recent, part := if s.inUrl then .path else .outside }
  | .path =>
      if urlDelimiters.contains byte then {}
      else if byte = 63 then { r with part := .query }
      else r
  | .query =>
      if urlDelimiters.contains byte then {}
      else if byte = 35 then { r with part := .outside }
      else r

def reading (content : List UInt8) : Reading := content.foldl Reading.byte {}

theorem reading_snoc (content : List UInt8) (byte : UInt8) :
    reading (content ++ [byte]) = (reading content).byte byte := List.foldl_concat _ _ _ _

def StartsKey (before : List UInt8) (byte : UInt8) : Prop :=
  (byte = 63 ∧ (reading before).part = .path) ∨
    ((byte = 38 ∨ byte = 59) ∧ (reading before).part = .query)

/-- A recognised key stands at the beginning of a query or after a separator in one, and
something ends it. -/
def SecretKey (content : List UInt8) : Prop :=
  exists before start key last after, content = before ++ start :: key ++ last :: after ∧
    StartsKey before start ∧ key.map lowered ∈ secretQueryKeys ∧
    (last = 61 ∨ last = 38 ∨ last = 59 ∨ last = 35)

/-!
## The scanner follows the reading
-/

def KeyRead (content read : List UInt8) : Prop :=
  exists before start key, content = before ++ start :: key ∧ StartsKey before start ∧
    read = (key.map lowered).take 65

structure Follows (content : List UInt8) (s : Scanner) : Prop where
  recent : s.recent = (reading content).recent
  inUrl : s.inUrl = decide ((reading content).part ≠ .outside)
  path : (reading content).part = .path -> s.queryKey = .none
  query : (reading content).part = .query -> s.queryKey ≠ .none
  key : (reading content).part = .query -> forall read, s.queryKey = .key read -> KeyRead content read

theorem Follows.of_outside {content : List UInt8} {s : Scanner}
    (hrecent : s.recent = (reading content).recent) (hinUrl : s.inUrl = false)
    (hpart : (reading content).part = .outside) : Follows content s where
  recent := hrecent
  inUrl := by rw [hinUrl, hpart]; rfl
  path h := by rw [hpart] at h; cases h
  query h := by rw [hpart] at h; cases h
  key h := by rw [hpart] at h; cases h

theorem Follows.of_path {content : List UInt8} {s : Scanner}
    (hrecent : s.recent = (reading content).recent) (hinUrl : s.inUrl = true)
    (hpart : (reading content).part = .path) (hnone : s.queryKey = .none) :
    Follows content s where
  recent := hrecent
  inUrl := by rw [hinUrl, hpart]; rfl
  path _ := hnone
  query h := by rw [hpart] at h; cases h
  key h := by rw [hpart] at h; cases h

theorem Follows.of_query {content : List UInt8} {s : Scanner}
    (hrecent : s.recent = (reading content).recent) (hinUrl : s.inUrl = true)
    (hpart : (reading content).part = .query) (hbegun : s.queryKey ≠ .none)
    (hkey : forall read, s.queryKey = .key read -> KeyRead content read) :
    Follows content s where
  recent := hrecent
  inUrl := by rw [hinUrl, hpart]; rfl
  path h := by rw [hpart] at h; cases h
  query _ := hbegun
  key _ := hkey

theorem follows_nil : Follows [] {} := .of_outside rfl rfl rfl

theorem Follows.inUrl_of_outside {content : List UInt8} {s : Scanner} (h : Follows content s)
    (hpart : (reading content).part = .outside) : s.inUrl = false := by
  rw [h.inUrl, hpart]
  rfl

theorem Follows.inUrl_of_path {content : List UInt8} {s : Scanner} (h : Follows content s)
    (hpart : (reading content).part = .path) : s.inUrl = true := by
  rw [h.inUrl, hpart]
  rfl

theorem Follows.inUrl_of_query {content : List UInt8} {s : Scanner} (h : Follows content s)
    (hpart : (reading content).part = .query) : s.inUrl = true := by
  rw [h.inUrl, hpart]
  rfl

def pushed (recent : List UInt8) (byte : UInt8) : List UInt8 :=
  let grown := recent ++ [lowered byte]
  if grown.length > 8 then grown.tail else grown

def endsInScheme (recent : List UInt8) : Bool :=
  (bytesOf "https://").isSuffixOf recent || (bytesOf "http://").isSuffixOf recent

theorem plainByte_eq (s : Scanner) (byte : UInt8) :
    plainByte s byte =
      if endsInScheme (pushed s.recent byte) then
        { recent := pushed s.recent byte, inUrl := true, queryKey := .none }
      else { s with recent := pushed s.recent byte } := rfl

theorem byte_outside {r : Reading} (h : r.part = .outside) (byte : UInt8) :
    r.byte byte =
      { recent := pushed r.recent byte
        part := if endsInScheme (pushed r.recent byte) then .path else .outside } := by
  unfold Reading.byte
  rw [h]
  simp only [plainByte_eq]
  split <;> rfl

theorem byte_path {r : Reading} (h : r.part = .path) (byte : UInt8) :
    r.byte byte =
      if urlDelimiters.contains byte then {}
      else if byte = 63 then { r with part := .query }
      else r := by
  unfold Reading.byte
  rw [h]

theorem byte_query {r : Reading} (h : r.part = .query) (byte : UInt8) :
    r.byte byte =
      if urlDelimiters.contains byte then {}
      else if byte = 35 then { r with part := .outside }
      else r := by
  unfold Reading.byte
  rw [h]

theorem Follows.outside {content : List UInt8} {s : Scanner} {byte : UInt8}
    (h : Follows content s) (hpart : (reading content).part = .outside) :
    exists s', scanByte s byte = some s' ∧ Follows (content ++ [byte]) s' := by
  have hinUrl := h.inUrl_of_outside hpart
  have hnext := (reading_snoc content byte).trans (byte_outside hpart byte)
  rw [← h.recent] at hnext
  refine ⟨plainByte s byte, by rw [scanByte, hinUrl, if_neg Bool.false_ne_true], ?_⟩
  rw [plainByte_eq]
  split
  · next hscheme =>
      rw [if_pos hscheme] at hnext
      exact .of_path (by rw [hnext]) rfl (by rw [hnext]) rfl
  · next hscheme =>
      rw [if_neg hscheme] at hnext
      exact .of_outside (by rw [hnext]) hinUrl (by rw [hnext])

theorem follows_delimiter {content : List UInt8} {byte : UInt8}
    (hnext : reading (content ++ [byte]) = {}) : Follows (content ++ [byte]) {} :=
  .of_outside (by rw [hnext]) rfl (by rw [hnext])

theorem Follows.path_byte {content : List UInt8} {s : Scanner} {byte : UInt8}
    (h : Follows content s) (hpart : (reading content).part = .path) :
    exists s', scanByte s byte = some s' ∧ Follows (content ++ [byte]) s' := by
  have hinUrl := h.inUrl_of_path hpart
  have hnext := (reading_snoc content byte).trans (byte_path hpart byte)
  have hbyte : scanByte s byte = if urlDelimiters.contains byte then some {}
      else some (if byte = 63 then { s with queryKey := .key [] } else s) := by
    rw [scanByte, if_pos hinUrl, urlByte, h.path hpart]
  rw [hbyte]
  split
  · next hdelimiter =>
      rw [if_pos hdelimiter] at hnext
      exact ⟨_, rfl, follows_delimiter hnext⟩
  · next hdelimiter =>
      rw [if_neg hdelimiter] at hnext
      split
      · next hquery =>
          rw [if_pos hquery] at hnext
          refine ⟨_, rfl, .of_query (by rw [hnext]; exact h.recent) hinUrl (by rw [hnext])
            (by nofun) ?_⟩
          intro read hread
          cases hread
          exact ⟨content, byte, [], rfl, Or.inl ⟨hquery, hpart⟩, rfl⟩
      · next hquery =>
          rw [if_neg hquery] at hnext
          exact ⟨s, rfl, .of_path (by rw [hnext]; exact h.recent) hinUrl
            (by rw [hnext]; exact hpart) (h.path hpart)⟩

theorem take_concat_of_short {read : List UInt8} {key : List UInt8} (byte : UInt8)
    (hread : read = (key.map lowered).take 65) (hshort : read.length ≤ 64) :
    read ++ [lowered byte] = ((key ++ [byte]).map lowered).take 65 := by
  have hlength : (key.map lowered).length ≤ 64 := by
    rw [hread, List.length_take] at hshort
    omega
  rw [List.take_of_length_le (by omega)] at hread
  rw [hread, List.map_append, List.map_singleton, List.take_of_length_le (by simp at hlength ⊢; omega)]

theorem take_concat_of_long {read : List UInt8} {key : List UInt8} (byte : UInt8)
    (hread : read = (key.map lowered).take 65) (hlong : ¬ read.length ≤ 64) :
    read = ((key ++ [byte]).map lowered).take 65 := by
  have hlength : 65 ≤ (key.map lowered).length := by
    rw [hread, List.length_take] at hlong
    omega
  rw [hread, List.map_append, List.take_append_of_le_length hlength]

theorem KeyRead.grown {content read : List UInt8} {byte : UInt8} (h : KeyRead content read) :
    KeyRead (content ++ [byte])
      (if read.length ≤ 64 then read ++ [lowered byte] else read) := by
  rcases h with ⟨before, start, key, hcontent, hstart, hread⟩
  refine ⟨before, start, key ++ [byte], by rw [hcontent]; simp, hstart, ?_⟩
  split
  · next hshort => exact take_concat_of_short byte hread hshort
  · next hlong => exact take_concat_of_long byte hread hlong

theorem length_lt_of_secret {key : List UInt8} (h : key ∈ secretQueryKeys) : key.length < 65 := by
  have hall : secretQueryKeys.all (fun key => key.length < 65) = true := by
    decide +kernel
  exact of_decide_eq_true (List.all_eq_true.mp hall key h)

theorem secret_of_take {key : List UInt8} :
    key.take 65 ∈ secretQueryKeys <-> key ∈ secretQueryKeys := by
  constructor
  · intro h
    have hlength := length_lt_of_secret h
    rw [List.length_take] at hlength
    rwa [List.take_of_length_le (by omega)] at h
  · intro h
    rwa [List.take_of_length_le (length_lt_of_secret h).le]

def EndsKey (byte : UInt8) : Prop := byte = 61 ∨ byte = 38 ∨ byte = 59 ∨ byte = 35

instance (byte : UInt8) : Decidable (EndsKey byte) :=
  inferInstanceAs (Decidable (byte = 61 ∨ byte = 38 ∨ byte = 59 ∨ byte = 35))

theorem keyRead_separator {content : List UInt8} {byte : UInt8}
    (hpart : (reading content).part = .query) (hseparator : byte = 38 ∨ byte = 59) :
    KeyRead (content ++ [byte]) [] :=
  ⟨content, byte, [], rfl, Or.inr ⟨hseparator, hpart⟩, rfl⟩

theorem ne_hash_of_separator {byte : UInt8} (h : byte = 38 ∨ byte = 59) : byte ≠ 35 := by
  rcases h with rfl | rfl <;> decide

theorem Follows.key_ends {content read : List UInt8} {s : Scanner} {byte : UInt8}
    (h : Follows content s) (hpart : (reading content).part = .query)
    (hdelimiter : ¬ urlDelimiters.contains byte = true) (hkey : s.queryKey = .key read)
    (hends : EndsKey byte) :
    (scanByte s byte = none ∧ SecretKey (content ++ [byte])) ∨
      exists s', scanByte s byte = some s' ∧ Follows (content ++ [byte]) s' := by
  have hnext := (reading_snoc content byte).trans (byte_query hpart byte)
  rw [if_neg hdelimiter] at hnext
  have hbyte : scanByte s byte =
      if secretQueryKeys.contains read then none
      else some
        { s with
          queryKey := if byte = 38 ∨ byte = 59 then .key [] else .value
          inUrl := byte ≠ 35 } := by
    rw [scanByte, if_pos (h.inUrl_of_query hpart), urlByte, if_neg hdelimiter, hkey]
    exact if_pos hends
  rw [hbyte]
  split
  · next hsecret =>
      rcases h.key hpart read hkey with ⟨before, start, key, hcontent, hstart, hread⟩
      refine Or.inl ⟨rfl, before, start, key, byte, [], ?_, hstart, ?_, hends⟩
      · rw [hcontent]
      · rw [hread] at hsecret
        exact secret_of_take.mp (List.contains_iff_mem.mp hsecret)
  · refine Or.inr ⟨_, rfl, ?_⟩
    by_cases hhash : byte = 35
    · rw [if_pos hhash] at hnext
      exact .of_outside (by rw [hnext]; exact h.recent) (by simp [hhash]) (by rw [hnext])
    · rw [if_neg hhash] at hnext
      refine .of_query (by rw [hnext]; exact h.recent) (by simp [hhash])
        (by rw [hnext]; exact hpart) ?_ ?_
      · show (if byte = 38 ∨ byte = 59 then QueryKey.key [] else .value) ≠ .none
        split <;> nofun
      · intro read' hread'
        simp only at hread'
        split at hread'
        · next hseparator =>
            cases hread'
            exact keyRead_separator hpart hseparator
        · cases hread'

theorem Follows.key_grows {content read : List UInt8} {s : Scanner} {byte : UInt8}
    (h : Follows content s) (hpart : (reading content).part = .query)
    (hdelimiter : ¬ urlDelimiters.contains byte = true) (hkey : s.queryKey = .key read)
    (hends : ¬ EndsKey byte) :
    exists s', scanByte s byte = some s' ∧ Follows (content ++ [byte]) s' := by
  have hinUrl := h.inUrl_of_query hpart
  have hhash : byte ≠ 35 := fun hbyte => hends (Or.inr (Or.inr (Or.inr hbyte)))
  have hnext := (reading_snoc content byte).trans (byte_query hpart byte)
  rw [if_neg hdelimiter, if_neg hhash] at hnext
  have hgrown := @KeyRead.grown content read byte (h.key hpart read hkey)
  have hbyte : scanByte s byte =
      if read.length ≤ 64 then some { s with queryKey := .key (read ++ [lowered byte]) }
      else some s := by
    rw [scanByte, if_pos hinUrl, urlByte, if_neg hdelimiter, hkey]
    exact if_neg hends
  rw [hbyte]
  split
  · next hshort =>
      rw [if_pos hshort] at hgrown
      refine ⟨_, rfl, .of_query (by rw [hnext]; exact h.recent) hinUrl
        (by rw [hnext]; exact hpart) (by nofun) ?_⟩
      intro read' hread'
      cases hread'
      exact hgrown
  · next hlong =>
      rw [if_neg hlong] at hgrown
      refine ⟨s, rfl, .of_query (by rw [hnext]; exact h.recent) hinUrl
        (by rw [hnext]; exact hpart) (h.query hpart) ?_⟩
      intro read' hread'
      rw [hkey] at hread'
      cases hread'
      exact hgrown

theorem Follows.value_byte {content : List UInt8} {s : Scanner} {byte : UInt8}
    (h : Follows content s) (hpart : (reading content).part = .query)
    (hdelimiter : ¬ urlDelimiters.contains byte = true) (hvalue : s.queryKey = .value) :
    exists s', scanByte s byte = some s' ∧ Follows (content ++ [byte]) s' := by
  have hinUrl := h.inUrl_of_query hpart
  have hnext := (reading_snoc content byte).trans (byte_query hpart byte)
  rw [if_neg hdelimiter] at hnext
  have hbyte : scanByte s byte =
      if byte = 38 ∨ byte = 59 then some { s with queryKey := .key [] }
      else if byte = 35 then some { s with inUrl := false }
      else some s := by
    rw [scanByte, if_pos hinUrl, urlByte, if_neg hdelimiter, hvalue]
  rw [hbyte]
  split
  · next hseparator =>
      rw [if_neg (ne_hash_of_separator hseparator)] at hnext
      refine ⟨_, rfl, .of_query (by rw [hnext]; exact h.recent) hinUrl
        (by rw [hnext]; exact hpart) (by nofun) ?_⟩
      intro read hread
      cases hread
      exact keyRead_separator hpart hseparator
  · split
    · next hhash =>
        rw [if_pos hhash] at hnext
        exact ⟨_, rfl, .of_outside (by rw [hnext]; exact h.recent) rfl (by rw [hnext])⟩
    · next hhash =>
        rw [if_neg hhash] at hnext
        refine ⟨s, rfl, .of_query (by rw [hnext]; exact h.recent) hinUrl
          (by rw [hnext]; exact hpart) (h.query hpart) ?_⟩
        intro read hread
        rw [hvalue] at hread
        cases hread

theorem Follows.query_byte {content : List UInt8} {s : Scanner} {byte : UInt8}
    (h : Follows content s) (hpart : (reading content).part = .query) :
    (scanByte s byte = none ∧ SecretKey (content ++ [byte])) ∨
      exists s', scanByte s byte = some s' ∧ Follows (content ++ [byte]) s' := by
  by_cases hdelimiter : urlDelimiters.contains byte = true
  · have hnext := (reading_snoc content byte).trans (byte_query hpart byte)
    rw [if_pos hdelimiter] at hnext
    refine Or.inr ⟨{}, ?_, follows_delimiter hnext⟩
    rw [scanByte, if_pos (h.inUrl_of_query hpart), urlByte, if_pos hdelimiter]
  cases hkey : s.queryKey with
  | none => exact absurd hkey (h.query hpart)
  | key read =>
      by_cases hends : EndsKey byte
      · exact h.key_ends hpart hdelimiter hkey hends
      · exact Or.inr (h.key_grows hpart hdelimiter hkey hends)
  | value => exact Or.inr (h.value_byte hpart hdelimiter hkey)

theorem Follows.byte {content : List UInt8} {s : Scanner} (byte : UInt8)
    (h : Follows content s) :
    (scanByte s byte = none ∧ SecretKey (content ++ [byte])) ∨
      exists s', scanByte s byte = some s' ∧ Follows (content ++ [byte]) s' := by
  cases hpart : (reading content).part with
  | outside => exact Or.inr (h.outside hpart)
  | path => exact Or.inr (h.path_byte hpart)
  | query => exact h.query_byte hpart

/-!
## What is refused
-/

def scanned (content : List UInt8) : Option Scanner := content.foldlM scanByte {}

theorem scanned_snoc (content : List UInt8) (byte : UInt8) :
    scanned (content ++ [byte]) = (scanned content).bind (fun s => scanByte s byte) := by
  unfold scanned
  rw [List.foldlM_append]
  exact congrArg ((content.foldlM scanByte {}).bind ·)
    (funext fun s => bind_pure (scanByte s byte))

theorem SecretKey.append {content : List UInt8} (h : SecretKey content) (more : List UInt8) :
    SecretKey (content ++ more) := by
  rcases h with ⟨before, start, key, last, after, rfl, hstart, hkey, hlast⟩
  exact ⟨before, start, key, last, after ++ more, by simp, hstart, hkey, hlast⟩

theorem scanned_follows (content : List UInt8) :
    (scanned content = none ∧ SecretKey content) ∨
      exists s, scanned content = some s ∧ Follows content s := by
  induction content using List.reverseRecOn with
  | nil => exact Or.inr ⟨{}, rfl, follows_nil⟩
  | append_singleton content byte ih =>
      rw [scanned_snoc]
      rcases ih with ⟨hnone, hsecret⟩ | ⟨s, hs, hfollows⟩
      · exact Or.inl ⟨by rw [hnone]; rfl, hsecret.append [byte]⟩
      · rw [hs]
        exact hfollows.byte byte

def KeyByte (byte : UInt8) : Prop := urlDelimiters.contains byte = false ∧ ¬ EndsKey byte

instance (byte : UInt8) : Decidable (KeyByte byte) :=
  inferInstanceAs (Decidable (_ ∧ ¬ EndsKey byte))

theorem keyByte_of_lowered {byte : UInt8} (h : KeyByte (lowered byte)) : KeyByte byte := by
  have hkept : (61 :: 38 :: 59 :: 35 :: urlDelimiters).all (fun b => lowered b = b) = true := by
    decide
  have hsame : byte ∈ 61 :: 38 :: 59 :: 35 :: urlDelimiters -> lowered byte = byte :=
    fun hbyte => of_decide_eq_true (List.all_eq_true.mp hkept byte hbyte)
  by_cases hspecial : byte ∈ 61 :: 38 :: 59 :: 35 :: urlDelimiters
  · rwa [hsame hspecial] at h
  · simp only [List.mem_cons, not_or] at hspecial
    rcases hspecial with ⟨h61, h38, h59, h35, hdelimiter⟩
    refine ⟨by simpa using hdelimiter, ?_⟩
    rintro (h | h | h | h) <;> contradiction

theorem keyByte_of_secret {key : List UInt8} (h : key.map lowered ∈ secretQueryKeys) :
    forall byte, byte ∈ key -> KeyByte byte := by
  have hall : secretQueryKeys.all (fun key => key.all fun byte => decide (KeyByte byte)) = true := by
    decide +kernel
  intro byte hbyte
  have hkey := List.all_eq_true.mp (List.all_eq_true.mp hall _ h)
  exact keyByte_of_lowered (of_decide_eq_true (hkey _ (List.mem_map_of_mem hbyte)))

theorem scan_key {key : List UInt8} (hkey : forall byte, byte ∈ key -> KeyByte byte) :
    forall {s : Scanner} {read : List UInt8}, s.inUrl = true -> s.queryKey = .key read ->
      read.length + key.length ≤ 65 ->
        key.foldlM scanByte s = some { s with queryKey := .key (read ++ key.map lowered) } := by
  induction key with
  | nil =>
      intro s read _ hread _
      rw [List.map_nil, List.append_nil, ← hread]
      rfl
  | cons byte rest ih =>
      intro s read hinUrl hread hlength
      rcases hkey byte (List.mem_cons_self) with ⟨hdelimiter, hends⟩
      rw [List.length_cons] at hlength
      have hbyte : scanByte s byte = some { s with queryKey := .key (read ++ [lowered byte]) } := by
        rw [scanByte, if_pos hinUrl, urlByte, if_neg (by rw [hdelimiter]; exact Bool.false_ne_true),
          hread]
        exact (if_neg hends).trans (if_pos (by omega))
      rw [List.foldlM_cons, hbyte]
      refine (ih (s := { s with queryKey := .key (read ++ [lowered byte]) })
        (fun b hb => hkey b (List.mem_cons_of_mem byte hb)) hinUrl rfl ?_).trans ?_
      · rw [List.length_append, List.length_singleton]
        omega
      · simp

/-- Where a key begins the scanner begins to read one, unless it has found another. -/
theorem Follows.starts {content : List UInt8} {s : Scanner} {start : UInt8}
    (h : Follows content s) (hstart : StartsKey content start) :
    scanByte s start = none ∨
      exists s', scanByte s start = some s' ∧ s'.inUrl = true ∧ s'.queryKey = .key [] := by
  rcases hstart with ⟨rfl, hpart⟩ | ⟨hseparator, hpart⟩
  · refine Or.inr ⟨{ s with queryKey := .key [] }, ?_, h.inUrl_of_path hpart, rfl⟩
    rw [scanByte, if_pos (h.inUrl_of_path hpart), urlByte, if_neg (by decide), h.path hpart]
    rfl
  · have hinUrl := h.inUrl_of_query hpart
    have hdelimiter : ¬ urlDelimiters.contains start = true := by
      rcases hseparator with rfl | rfl <;> decide
    rw [scanByte, if_pos hinUrl, urlByte, if_neg hdelimiter]
    cases hkey : s.queryKey with
    | none => exact absurd hkey (h.query hpart)
    | key read =>
        have hends : start = 61 ∨ start = 38 ∨ start = 59 ∨ start = 35 := by
          rcases hseparator with h38 | h59
          · exact Or.inr (Or.inl h38)
          · exact Or.inr (Or.inr (Or.inl h59))
        simp only
        rw [if_pos hends, if_pos hseparator]
        split
        · exact Or.inl rfl
        · exact Or.inr ⟨_, rfl, decide_eq_true (ne_hash_of_separator hseparator), rfl⟩
    | value =>
        simp only
        rw [if_pos hseparator]
        exact Or.inr ⟨_, rfl, hinUrl, rfl⟩

theorem scanned_append (content more : List UInt8) :
    scanned (content ++ more) = (scanned content).bind (fun s => more.foldlM scanByte s) := by
  unfold scanned
  rw [List.foldlM_append]
  rfl

theorem scanned_append_none {content : List UInt8} (h : scanned content = none)
    (more : List UInt8) : scanned (content ++ more) = none := by
  rw [scanned_append, h]
  rfl

theorem refused_at_end {s : Scanner} {key : List UInt8} {last : UInt8} (hinUrl : s.inUrl = true)
    (hread : s.queryKey = .key key) (hkey : key ∈ secretQueryKeys) (hlast : EndsKey last) :
    scanByte s last = none := by
  have hdelimiter : ¬ urlDelimiters.contains last = true := by
    rcases hlast with rfl | rfl | rfl | rfl <;> decide
  rw [scanByte, if_pos hinUrl, urlByte, if_neg hdelimiter, hread]
  exact (if_pos hlast).trans (if_pos (List.contains_iff_mem.mpr hkey))

theorem refused_of_secret {content : List UInt8} (h : SecretKey content) :
    scanned content = none := by
  rcases h with ⟨before, start, key, last, after, rfl, hstart, hkey, hlast⟩
  have hsplit : before ++ start :: key ++ last :: after =
      before ++ ([start] ++ (key ++ ([last] ++ after))) := by
    simp
  rw [hsplit]
  rcases scanned_follows before with ⟨hnone, -⟩ | ⟨s, hs, hfollows⟩
  · exact scanned_append_none hnone _
  rw [scanned_append, hs, Option.bind_some, List.foldlM_append]
  have hsingle : forall (t : Scanner) (byte : UInt8), [byte].foldlM scanByte t = scanByte t byte :=
    fun t byte => bind_pure (scanByte t byte)
  rw [hsingle]
  rcases hfollows.starts hstart with hnone | ⟨t, ht, hinUrl, hread⟩
  · rw [hnone]
    rfl
  have hlength : key.length ≤ 65 := by
    have hshort := length_lt_of_secret hkey
    rw [List.length_map] at hshort
    omega
  have hscan := scan_key (keyByte_of_secret hkey) hinUrl hread (by simpa using hlength)
  have hrefused := refused_at_end (s := { t with queryKey := .key ([] ++ key.map lowered) })
    hinUrl rfl hkey hlast
  rw [ht]
  show (key ++ ([last] ++ after)).foldlM scanByte t = none
  rw [List.foldlM_append, hscan]
  show ([last] ++ after).foldlM scanByte _ = none
  rw [List.foldlM_append, hsingle, hrefused]
  rfl

theorem refused_iff (content : List UInt8) :
    credentialFree content = false <-> SecretKey content := by
  have hscanned : credentialFree content = (scanned content).isSome := rfl
  rw [hscanned, Option.isSome_eq_false_iff, Option.isNone_iff_eq_none]
  constructor
  · intro hnone
    rcases scanned_follows content with ⟨-, hsecret⟩ | ⟨s, hs, -⟩
    · exact hsecret
    · rw [hs] at hnone
      cases hnone
  · exact refused_of_secret

/-!
## URLs in the bytes
-/

def schemes : List (List UInt8) := [bytesOf "http://", bytesOf "https://"]

def UrlByte (byte : UInt8) : Prop := urlDelimiters.contains byte = false ∧ byte ≠ 35

/-- A URL in these bytes, and in a query of it a recognised key that `=` follows. -/
structure Bearing (content : List UInt8) where
  before : List UInt8
  scheme : List UInt8
  path : List UInt8
  query : List UInt8
  key : List UInt8
  after : List UInt8
  content_eq : content = before ++ scheme ++ path ++ 63 :: query ++ key ++ 61 :: after
  scheme_mem : scheme.map lowered ∈ schemes
  url : forall byte, byte ∈ path ++ query -> UrlByte byte
  separated : query = [] ∨ exists front separator, query = front ++ [separator] ∧
    (separator = 38 ∨ separator = 59)
  key_mem : key.map lowered ∈ secretQueryKeys

theorem byte_url {r : Reading} {byte : UInt8} (hbyte : UrlByte byte) (hpart : r.part ≠ .outside) :
    (r.byte byte).part ≠ .outside ∧ (r.part = .query -> (r.byte byte).part = .query) := by
  rcases hbyte with ⟨hdelimiter, hhash⟩
  have hcontains : ¬ urlDelimiters.contains byte = true := by
    rw [hdelimiter]
    exact Bool.false_ne_true
  cases h : r.part with
  | outside => exact absurd h hpart
  | path =>
      rw [byte_path h, if_neg hcontains]
      refine ⟨?_, nofun⟩
      split
      · nofun
      · exact hpart
  | query =>
      rw [byte_query h, if_neg hcontains, if_neg hhash]
      exact ⟨hpart, fun _ => h⟩

theorem reading_url {before : List UInt8} {url : List UInt8}
    (hurl : forall byte, byte ∈ url -> UrlByte byte) (hpart : (reading before).part ≠ .outside) :
    (reading (before ++ url)).part ≠ .outside ∧
      ((reading before).part = .query -> (reading (before ++ url)).part = .query) := by
  induction url using List.reverseRecOn with
  | nil => simpa using hpart
  | append_singleton url byte ih =>
      rcases ih (fun b hb => hurl b (List.mem_append_left _ hb)) with ⟨hinside, hquery⟩
      rcases byte_url (hurl byte (by simp)) hinside with ⟨hnext, hnextQuery⟩
      rw [← List.append_assoc, reading_snoc]
      exact ⟨hnext, fun h => hnextQuery (hquery h)⟩

theorem suffix_pushed {done recent : List UInt8} (byte : UInt8) (hdone : done <:+ recent)
    (hlength : done.length < 8) : done ++ [lowered byte] <:+ pushed recent byte := by
  have hgrown : done ++ [lowered byte] <:+ recent ++ [lowered byte] := by
    rcases hdone with ⟨front, rfl⟩
    exact ⟨front, by simp⟩
  unfold pushed
  simp only
  split
  · next hlong =>
      refine List.suffix_of_suffix_length_le hgrown (List.tail_suffix _) ?_
      rw [List.length_tail, List.length_append, List.length_singleton]
      omega
  · exact hgrown

/-- What is known within a scheme: a URL is being read, or the window holds what has been
read of the scheme and no scheme is complete. -/
def Approaches (r : Reading) (done : List UInt8) : Prop :=
  r.part ≠ .outside ∨
    (done.map lowered <:+ r.recent ∧ (done ≠ [] -> endsInScheme r.recent = false))

theorem Approaches.byte {r : Reading} {done : List UInt8} {byte : UInt8} (h : Approaches r done)
    (hbyte : UrlByte byte) (hlength : done.length < 8) :
    Approaches (r.byte byte) (done ++ [byte]) := by
  by_cases hpart : r.part = .outside
  · rcases h with hinside | ⟨hsuffix, -⟩
    · exact absurd hpart hinside
    rw [byte_outside hpart]
    by_cases hscheme : endsInScheme (pushed r.recent byte) = true
    · left
      rw [if_pos hscheme]
      nofun
    · right
      refine ⟨?_, fun _ => Bool.eq_false_iff.mpr hscheme⟩
      rw [List.map_append, List.map_singleton]
      exact suffix_pushed byte hsuffix (by rwa [List.length_map])
  · exact Or.inl (byte_url hbyte hpart).1

theorem approaches_reading {before scheme : List UInt8}
    (hurl : forall byte, byte ∈ scheme -> UrlByte byte) (hlength : scheme.length ≤ 8) :
    Approaches (reading (before ++ scheme)) scheme := by
  induction scheme using List.reverseRecOn with
  | nil => exact Or.inr ⟨List.nil_suffix, fun h => absurd rfl h⟩
  | append_singleton done byte ih =>
      rw [List.length_append, List.length_singleton] at hlength
      rw [← List.append_assoc, reading_snoc]
      exact (ih (fun b hb => hurl b (List.mem_append_left _ hb)) (by omega)).byte
        (hurl byte (by simp)) (by omega)

theorem urlByte_of_lowered {byte : UInt8} (h : UrlByte (lowered byte)) : UrlByte byte := by
  have hkept : (35 :: urlDelimiters).all (fun b => lowered b = b) = true := by decide
  by_cases hspecial : byte ∈ 35 :: urlDelimiters
  · rwa [of_decide_eq_true (List.all_eq_true.mp hkept byte hspecial)] at h
  · rw [List.mem_cons, not_or] at hspecial
    exact ⟨by simpa using hspecial.2, hspecial.1⟩

theorem reading_scheme {before scheme : List UInt8} (hscheme : scheme.map lowered ∈ schemes) :
    (reading (before ++ scheme)).part ≠ .outside := by
  have hall : schemes.all (fun scheme => scheme.length ≤ 8 && !scheme.isEmpty &&
      scheme.all fun byte => !urlDelimiters.contains byte && byte != 35) = true := by
    decide +kernel
  have hfacts := List.all_eq_true.mp hall _ hscheme
  simp only [Bool.and_eq_true, decide_eq_true_eq, List.length_map, List.all_eq_true,
    Bool.not_eq_true', bne_iff_ne] at hfacts
  rcases hfacts with ⟨⟨hlength, hempty⟩, hbytes⟩
  have hne : scheme ≠ [] := by
    rintro rfl
    cases hempty
  have hurl : forall byte, byte ∈ scheme -> UrlByte byte :=
    fun byte hbyte => urlByte_of_lowered (hbytes _ (List.mem_map_of_mem hbyte))
  rcases @approaches_reading before scheme hurl hlength with hinside | ⟨hsuffix, hnone⟩
  · exact hinside
  · have hends : endsInScheme (reading (before ++ scheme)).recent = true := by
      unfold endsInScheme
      rcases List.mem_cons.mp hscheme with hhttp | hhttps
      · rw [hhttp] at hsuffix
        rw [List.isSuffixOf_iff_suffix.mpr hsuffix, Bool.or_true]
      · rw [List.mem_singleton.mp hhttps] at hsuffix
        rw [List.isSuffixOf_iff_suffix.mpr hsuffix, Bool.true_or]
    rw [hnone hne] at hends
    cases hends

namespace Bearing

variable {content : List UInt8} (b : Bearing content)

/-- The bytes up to the `?`. -/
def head : List UInt8 := b.before ++ b.scheme ++ b.path

theorem head_inside : (reading b.head).part ≠ .outside :=
  (reading_url (fun byte hbyte => b.url byte (List.mem_append_left _ hbyte))
    (reading_scheme b.scheme_mem)).1

theorem secretKey_of_starts {start : UInt8} {before : List UInt8}
    (hcontent : content = before ++ start :: b.key ++ 61 :: b.after)
    (hstart : StartsKey before start) : SecretKey content :=
  ⟨before, start, b.key, 61, b.after, hcontent, hstart, b.key_mem, Or.inl rfl⟩

theorem secretKey_of_separator (hquery : b.query ≠ []) : SecretKey content := by
  rcases b.separated with hempty | ⟨front, separator, hfront, hseparator⟩
  · exact absurd hempty hquery
  have hbegun : (reading (b.head ++ [63])).part = .query := by
    rw [reading_snoc]
    cases hpart : (reading b.head).part with
    | outside => exact absurd hpart b.head_inside
    | path => rw [byte_path hpart, if_neg (by decide), if_pos rfl]
    | query => rw [byte_query hpart, if_neg (by decide), if_neg (by decide), hpart]
  have hurl : forall byte, byte ∈ front -> UrlByte byte := by
    intro byte hbyte
    refine b.url byte (List.mem_append_right _ ?_)
    rw [hfront]
    exact List.mem_append_left _ hbyte
  have hpart : (reading (b.head ++ [63] ++ front)).part = .query :=
    (reading_url hurl (by rw [hbegun]; nofun)).2 hbegun
  have hcontent : content = (b.head ++ [63] ++ front) ++ separator :: b.key ++ 61 :: b.after := by
    refine b.content_eq.trans ?_
    rw [hfront]
    simp [head]
  exact b.secretKey_of_starts hcontent (Or.inr ⟨hseparator, hpart⟩)

theorem secretKey_of_path (hquery : b.query = []) (hpart : (reading b.head).part = .path) :
    SecretKey content := by
  have hcontent : content = b.head ++ 63 :: b.key ++ 61 :: b.after := by
    refine b.content_eq.trans ?_
    rw [hquery]
    simp [head]
  exact b.secretKey_of_starts hcontent (Or.inl ⟨rfl, hpart⟩)

/-- What the scan can miss: a key right after a `?` that stands in the query of a URL. -/
theorem missed (hmissed : ¬ SecretKey content) :
    b.query = [] ∧ (reading b.head).part = .query := by
  have hquery : b.query = [] := by
    by_contra hne
    exact hmissed (b.secretKey_of_separator hne)
  refine ⟨hquery, ?_⟩
  cases hpart : (reading b.head).part with
  | outside => exact absurd hpart b.head_inside
  | path => exact absurd (b.secretKey_of_path hquery hpart) hmissed
  | query => rfl

end Bearing

/-- The file has a URL with a recognised key in its query. -/
def BearsCredential (content : List UInt8) : Prop := Nonempty (Bearing content)

/-- A file that bears a credential is refused exactly when some recognised key begins where
the scan looks for one: after a separator, or after the `?` that begins the query of the URL
that is being read. A credential that is not refused comes right after a later `?`. -/
theorem rejects_bearing_iff (blocks : List (List UInt8)) :
    ((BearsCredential blocks.flatten -> rejectsBlocks blocks = true) <->
      (BearsCredential blocks.flatten -> SecretKey blocks.flatten)) ∧
    forall b : Bearing blocks.flatten, rejectsBlocks blocks = false ->
      b.query = [] ∧ (reading b.head).part = .query := by
  have hrejects : rejectsBlocks blocks = true <-> SecretKey blocks.flatten := by
    rw [rejectsBlocks_eq, Bool.not_eq_true', refused_iff]
  constructor
  · rw [hrejects]
  · intro b hpasses
    refine b.missed ?_
    rw [← hrejects, hpasses]
    exact Bool.false_ne_true

/-- `http://a?x=http://b?token=1` bears a credential and is not refused: to the scan the
second `?` stands in the value of `x`. -/
theorem nested_url_missed :
    ¬ forall blocks : List (List UInt8),
      BearsCredential blocks.flatten -> rejectsBlocks blocks = true := by
  intro h
  have hbears : BearsCredential [bytesOf "http://a?x=http://b?token=1"].flatten :=
    ⟨{ before := bytesOf "http://a?x="
       scheme := bytesOf "http://"
       path := bytesOf "b"
       query := []
       key := bytesOf "token"
       after := bytesOf "1"
       content_eq := by decide +kernel
       scheme_mem := by decide +kernel
       url := by
         have hall : (bytesOf "b" ++ []).all
             (fun byte => !urlDelimiters.contains byte && byte != 35) = true := by
           decide +kernel
         intro byte hbyte
         have hfacts := List.all_eq_true.mp hall byte hbyte
         simpa [UrlByte] using hfacts
       separated := Or.inl rfl
       key_mem := by decide +kernel }⟩
  have hrejects := h _ hbears
  have hpasses : rejectsBlocks [bytesOf "http://a?x=http://b?token=1"] = false := by
    decide +kernel
  rw [hpasses] at hrejects
  cases hrejects

end CredentialScan
end Job
end MightyColab
