import Mathlib.Algebra.GroupWithZero.Nat
import MightyColab.Job.Upload

/-!
# Uploading a file in chunks

`ContentsClient.upload` reads a local file, which may change between the reads, and sends it
in one request or in several. The server starts the file with chunk 1, appends the chunks
after it and finishes with chunk -1. The bytes of a request travel in base64.
-/

namespace MightyColab
namespace Contents

open Job.Transport (chunkSize)
open Job.Upload (Bytes applyChunk)

/-!
## The client
-/

/-- A local file while it is uploaded: its size as it is asked for first, and its content at
each of the reads, which are counted from 0. -/
structure LocalFile where
  path : String
  size : Nat
  content : Nat -> Bytes

/-- `f.read(CHUNK_SIZE)`, once `position` bytes have been read. -/
def LocalFile.read (f : LocalFile) (index position : Nat) : Bytes :=
  ((f.content index).drop position).take chunkSize

structure Request where
  chunk : Int
  bytes : Bytes
  deriving DecidableEq, Repr

structure Sent where
  /-- The requests, in order; the last one is not answered where one raises. -/
  requests : List Request
  ending : Except String Unit

def changedSize (f : LocalFile) (sent : Nat) : String :=
  s!"'{f.path}' changed size during upload (read 0 bytes at offset {sent} but expected " ++
    s!"{f.size} bytes total); aborting instead of retrying forever."

/-- The `while True` loop; `fault` is what each request raises, counted from 1. -/
def sendChunks (f : LocalFile) (fault : Nat -> Option String) (index sent : Nat) : Sent :=
  let piece := f.read index sent
  if _hshort : piece = [] ∧ sent < f.size then ⟨[], .error (changedSize f sent)⟩
  else
    let request : Request :=
      ⟨if f.size ≤ sent + piece.length then -1 else (index + 1 : Nat), piece⟩
    match fault (index + 1) with
    | some text => ⟨[request], .error text⟩
    | none =>
        if _hlast : f.size ≤ sent + piece.length then ⟨[request], .ok ()⟩
        else
          let rest := sendChunks f fault (index + 1) (sent + piece.length)
          ⟨request :: rest.requests, rest.ending⟩
termination_by f.size - sent
decreasing_by
  have hpos : 0 < piece.length := by
    rw [List.length_pos_iff]
    intro hnil
    exact _hshort ⟨hnil, by omega⟩
  have hlast' : ¬ f.size ≤ sent + piece.length := _hlast
  generalize piece.length = n at hpos hlast'
  omega

def upload (f : LocalFile) (fault : Nat -> Option String) : Sent :=
  if f.size ≤ chunkSize then
    ⟨[⟨1, f.content 0⟩], match fault 1 with
      | some text => .error text
      | none => .ok ()⟩
  else sendChunks f fault 0 0

/-!
## The server
-/

structure Remote where
  file : Option Bytes
  finished : Bool := false
  deriving DecidableEq, Repr

def Remote.apply (r : Remote) (q : Request) : Remote where
  file := some (applyChunk q.chunk q.bytes r.file)
  finished := decide (q.chunk = -1)

def Remote.applyAll (r : Remote) (requests : List Request) : Remote :=
  requests.foldl Remote.apply r

/-!
## What an upload should do
-/

def Sent.bytes (s : Sent) : Nat := (s.requests.map fun q => q.bytes.length).sum

def Unchanged (f : LocalFile) (content : Bytes) : Prop :=
  f.size = content.length ∧ forall i, f.content i = content

/-- A file that stays as it is arrives, the chunks of several requests are numbered from 1
up to a last -1, and no upload ends well with fewer bytes than the file was said to have. -/
structure Delivers (f : LocalFile) (fault : Nat -> Option String) : Prop where
  exact : forall content before, Unchanged f content -> (forall k, fault k = none) ->
    (upload f fault).ending = .ok () ∧
      (Remote.applyAll before (upload f fault).requests).file = some content
  numbered : (upload f fault).ending = .ok () -> 1 < (upload f fault).requests.length ->
    (upload f fault).requests.map Request.chunk =
      (List.range' 1 ((upload f fault).requests.length - 1)).map Int.ofNat ++ [-1]
  whole : (upload f fault).ending = .ok () -> f.size ≤ (upload f fault).bytes

variable {f : LocalFile} {fault : Nat -> Option String} {content : Bytes} {index sent : Nat}

/-!
## One pass of the loop
-/

theorem sendChunks_short (h : f.read index sent = [] ∧ sent < f.size) :
    sendChunks f fault index sent = ⟨[], .error (changedSize f sent)⟩ := by
  rw [sendChunks, dif_pos h]

theorem sendChunks_last (h : f.size ≤ sent + (f.read index sent).length)
    (hfault : fault (index + 1) = none) :
    sendChunks f fault index sent = ⟨[⟨-1, f.read index sent⟩], .ok ()⟩ := by
  have hnot : ¬ (f.read index sent = [] ∧ sent < f.size) := by
    rintro ⟨hnil, hlt⟩
    rw [hnil, List.length_nil] at h
    omega
  rw [sendChunks, dif_neg hnot, hfault]
  simp only [h, if_true, dif_pos]

theorem sendChunks_more (hread : f.read index sent ≠ [])
    (h : ¬ f.size ≤ sent + (f.read index sent).length) (hfault : fault (index + 1) = none) :
    sendChunks f fault index sent =
      ⟨⟨(index + 1 : Nat), f.read index sent⟩ ::
          (sendChunks f fault (index + 1) (sent + (f.read index sent).length)).requests,
        (sendChunks f fault (index + 1) (sent + (f.read index sent).length)).ending⟩ := by
  rw [sendChunks, dif_neg fun hshort => hread hshort.left, hfault]
  simp only [h, if_false, dif_neg, not_false_eq_true]

theorem sendChunks_raises {text : String} (h : ¬ (f.read index sent = [] ∧ sent < f.size))
    (hfault : fault (index + 1) = some text) :
    (sendChunks f fault index sent).ending = .error text := by
  rw [sendChunks, dif_neg h, hfault]

theorem sendChunks_cases {motive : Nat -> Nat -> Sent -> Prop}
    (last : forall index sent, f.size ≤ sent + (f.read index sent).length ->
      motive index sent ⟨[⟨-1, f.read index sent⟩], .ok ()⟩)
    (more : forall index sent rest, ¬ f.size ≤ sent + (f.read index sent).length ->
      motive (index + 1) (sent + (f.read index sent).length) rest ->
      motive index sent ⟨⟨(index + 1 : Nat), f.read index sent⟩ :: rest.requests, rest.ending⟩) :
    forall index sent, (sendChunks f fault index sent).ending = .ok () ->
      motive index sent (sendChunks f fault index sent) := by
  intro index sent
  induction hleft : f.size - sent using Nat.strong_induction_on generalizing index sent with
  | h left ih =>
      intro hok
      by_cases hshort : f.read index sent = [] ∧ sent < f.size
      · rw [sendChunks_short hshort] at hok
        cases hok
      cases hfault : fault (index + 1) with
      | some text =>
          rw [sendChunks_raises hshort hfault] at hok
          cases hok
      | none =>
          by_cases hlast : f.size ≤ sent + (f.read index sent).length
          · rw [sendChunks_last hlast hfault]
            exact last index sent hlast
          · have hread : f.read index sent ≠ [] := by
              intro hnil
              rw [hnil, List.length_nil] at hlast
              exact hshort ⟨hnil, by omega⟩
            rw [sendChunks_more hread hlast hfault] at hok ⊢
            have hpos := List.length_pos_iff.mpr hread
            exact more index sent _ hlast (ih _ (by omega) _ _ rfl hok)

/-!
## What the loop sends
-/

theorem read_length (f : LocalFile) (index sent : Nat) :
    (f.read index sent).length ≤ chunkSize := by
  unfold LocalFile.read
  rw [List.length_take]
  exact Nat.min_le_left _ _

theorem sendChunks_bytes (h : (sendChunks f fault index sent).ending = .ok ()) :
    f.size ≤ sent + (sendChunks f fault index sent).bytes := by
  refine sendChunks_cases (motive := fun _ sent s => f.size ≤ sent + s.bytes) ?_ ?_ index sent h
  · intro index sent hlast
    simpa [Sent.bytes] using hlast
  · intro index sent rest _ hrest
    rw [Sent.bytes, List.map_cons, List.sum_cons, ← Nat.add_assoc]
    exact hrest

theorem sendChunks_numbers (h : (sendChunks f fault index sent).ending = .ok ()) :
    exists k, (sendChunks f fault index sent).requests.length = k + 1 ∧
      (sendChunks f fault index sent).requests.map Request.chunk =
        (List.range' (index + 1) k).map Int.ofNat ++ [-1] := by
  refine sendChunks_cases (motive := fun index _ s => exists k, s.requests.length = k + 1 ∧
    s.requests.map Request.chunk = (List.range' (index + 1) k).map Int.ofNat ++ [-1]) ?_ ?_
    index sent h
  · intro index sent _
    exact ⟨0, rfl, rfl⟩
  · intro index sent rest _ hrest
    rcases hrest with ⟨k, hlength, hchunks⟩
    refine ⟨k + 1, by rw [List.length_cons, hlength], ?_⟩
    rw [List.map_cons, hchunks, List.range'_succ, List.map_cons]
    rfl

/-!
## A file that stays as it is
-/

theorem Unchanged.read (h : Unchanged f content) (index sent : Nat) :
    f.read index sent = (content.drop sent).take chunkSize := by
  rw [LocalFile.read, h.right]

theorem Unchanged.take_read (h : Unchanged f content) (index sent : Nat) :
    content.take sent ++ f.read index sent =
      content.take (sent + (f.read index sent).length) := by
  rw [List.take_add, h.read]
  congr 1
  rw [List.length_take]
  rcases Nat.le_total chunkSize (content.drop sent).length with hle | hle
  · rw [Nat.min_eq_left hle]
  · rw [Nat.min_eq_right hle, List.take_of_length_le hle, List.take_length]

theorem Unchanged.read_ne_nil (h : Unchanged f content) (hsent : sent < content.length) :
    f.read index sent ≠ [] := by
  intro hnil
  have hlength := congrArg List.length hnil
  rw [h.read, List.length_take, List.length_drop, List.length_nil] at hlength
  have hchunk := Job.Upload.chunkSize_pos
  omega

/-- The server holds what has been read, once the first request has been applied. -/
def Holds (content : Bytes) (index sent : Nat) (r : Remote) : Prop :=
  if index = 0 then sent = 0 ∧ chunkSize < content.length
  else r.file = some (content.take sent)

theorem Holds.next {r : Remote} (hr : Holds content index sent r) (h : Unchanged f content) :
    Holds content (index + 1) (sent + (f.read index sent).length)
      (r.apply ⟨(index + 1 : Nat), f.read index sent⟩) := by
  unfold Holds at hr ⊢
  rw [if_neg (Nat.succ_ne_zero index), ← h.take_read]
  unfold Remote.apply applyChunk
  by_cases hindex : index = 0
  · rw [if_pos hindex] at hr
    rw [hindex, hr.left]
    rfl
  · rw [if_neg hindex] at hr
    have hone : ((index + 1 : Nat) : Int) ≠ 1 := by omega
    simp only [if_neg hone, hr, Option.getD_some]

theorem Holds.last {r : Remote} (hr : Holds content index sent r) (h : Unchanged f content)
    (hlast : f.size ≤ sent + (f.read index sent).length) :
    (r.apply ⟨-1, f.read index sent⟩).file = some content := by
  unfold Holds at hr
  by_cases hindex : index = 0
  · rw [if_pos hindex] at hr
    have hread := read_length f index sent
    have hsize := h.left
    omega
  · rw [if_neg hindex] at hr
    unfold Remote.apply applyChunk
    have hone : (-1 : Int) ≠ 1 := by decide
    rw [if_neg hone, hr, Option.getD_some, h.take_read, List.take_of_length_le]
    rw [← h.left]
    exact hlast

theorem sendChunks_unchanged (h : Unchanged f content) (hfault : forall k, fault k = none) :
    forall index sent r, sent < content.length -> Holds content index sent r ->
      (sendChunks f fault index sent).ending = .ok () ∧
        (r.applyAll (sendChunks f fault index sent).requests).file = some content := by
  intro index sent
  induction hleft : content.length - sent using Nat.strong_induction_on
    generalizing index sent with
  | h left ih =>
      intro r hsent hr
      have hread : f.read index sent ≠ [] := h.read_ne_nil hsent
      by_cases hlast : f.size ≤ sent + (f.read index sent).length
      · rw [sendChunks_last hlast (hfault _)]
        exact ⟨rfl, hr.last h hlast⟩
      · rw [sendChunks_more hread hlast (hfault _)]
        have hpos := List.length_pos_iff.mpr hread
        have hsize := h.left
        exact ih _ (by omega) _ _ rfl _ (by omega) (hr.next h)

theorem upload_unchanged (h : Unchanged f content) (hfault : forall k, fault k = none)
    (before : Remote) :
    (upload f fault).ending = .ok () ∧
      (before.applyAll (upload f fault).requests).file = some content := by
  unfold upload
  split
  · rw [hfault, h.right]
    exact ⟨rfl, rfl⟩
  · next hmany =>
      rw [h.left] at hmany
      refine sendChunks_unchanged h hfault 0 0 before (by omega) ?_
      exact ⟨rfl, by omega⟩

/-!
## When an upload does what it should
-/

theorem upload_numbered (hok : (upload f fault).ending = .ok ())
    (hmany : 1 < (upload f fault).requests.length) :
    (upload f fault).requests.map Request.chunk =
      (List.range' 1 ((upload f fault).requests.length - 1)).map Int.ofNat ++ [-1] := by
  unfold upload at hok hmany ⊢
  split at hok
  · next hsingle =>
      rw [if_pos hsingle] at hmany
      exact absurd hmany (by simp)
  · next hmulti =>
      rw [if_neg hmulti]
      rcases sendChunks_numbers hok with ⟨k, hlength, hchunks⟩
      rw [hlength, hchunks]
      rfl

/-- The upload does what it should exactly when a file that is said to fit into one request
has, when it is read, at least the bytes it was said to have, or its request raises. -/
theorem upload_delivers_iff (f : LocalFile) (fault : Nat -> Option String) :
    Delivers f fault <->
      (f.size ≤ chunkSize -> fault 1 = none -> f.size ≤ (f.content 0).length) := by
  constructor
  · intro h hsingle hfault
    have hwhole := h.whole
    unfold upload at hwhole
    rw [if_pos hsingle, hfault] at hwhole
    simpa [Sent.bytes] using hwhole rfl
  · intro h
    refine ⟨fun content before hsame hfault => upload_unchanged hsame hfault before,
      upload_numbered, ?_⟩
    intro hok
    unfold upload at hok ⊢
    split at hok
    · next hsingle =>
        cases hfault : fault 1 with
        | some text =>
            rw [hfault] at hok
            cases hok
        | none =>
            rw [if_pos hsingle]
            simpa [Sent.bytes] using h hsingle hfault
    · next hmulti =>
        rw [if_neg hmulti]
        simpa using sendChunks_bytes hok

/-- A file of five bytes that has three left when it is read. -/
def shrunk : LocalFile where
  path := "notes.txt"
  size := 5
  content := fun _ => [1, 2, 3]

/-- It is sent as it is then, and nothing is raised. -/
theorem shrunk_sent : upload shrunk (fun _ => none) = ⟨[⟨1, [1, 2, 3]⟩], .ok ()⟩ ∧
    ¬ Delivers shrunk fun _ => none := by
  constructor
  · rfl
  · intro h
    have hwhole : 5 ≤ 3 := h.whole rfl
    exact absurd hwhole (by decide)

end Contents
end MightyColab
