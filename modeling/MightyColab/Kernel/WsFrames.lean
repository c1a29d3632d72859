import MightyColab.Lib.OffsetTable
import MightyColab.Lib.Utf8

/-!
# Frames of the kernel's WebSocket

A message goes over the WebSocket as its channel and its packed parts behind a table of offsets
(the v1 protocol), or as its JSON text, which its buffers follow in a frame where it has any
(the default protocol). What is sent is read back, or not sent.
-/

namespace MightyColab
namespace Kernel

open Lib OffsetTable

inductive FrameError where
  /-- `OverflowError`, of an offset that its word does not hold -/
  | overflow
  | index
  | unicode
  /-- `json.JSONDecodeError` -/
  | json (text : String)
  | unsupportedBuffers
  | jsonOffsets
  | chunkOffsets (i : Nat)
  deriving DecidableEq

def orRaise {result : Type} (e : FrameError) : Option result -> Except FrameError result
  | some a => .ok a
  | none => .error e

@[simp] theorem orRaise_some {result : Type} (e : FrameError) (a : result) :
    orRaise e (some a) = .ok a := rfl

theorem orRaise_eq_ok {result : Type} {e : FrameError} {o : Option result} {a : result} :
    orRaise e o = .ok a <-> o = some a := by
  cases o with
  | none => exact iff_of_false (fun h => by cases h) fun h => by cases h
  | some b => exact ⟨fun h => congrArg some (Except.ok.inj h), fun h => by cases h; rfl⟩

/-!
## The v1 protocol
-/

def serializeMsgToWsV1 (msgList : List Bytes) (channel : List Char) :
    Except FrameError Bytes := do
  let channel := Utf8.encode channel
  let offsets := bounds (8 * (1 + 1 + msgList.length + 1)) (channel :: msgList)
  let table <- orRaise .overflow (words .little 8 (offsets.length :: offsets))
  pure (table ++ (channel ++ msgList.flatten))

def deserializeMsgFromWsV1 (wsMsg : Bytes) : Except FrameError (List Char × List Bytes) := do
  let offsetNumber := wordAt .little 8 wsMsg 0
  let offsets := (List.range offsetNumber).map fun i => wordAt .little 8 wsMsg (i + 1)
  let first <- orRaise .index offsets[0]?
  let second <- orRaise .index offsets[1]?
  let channel <- orRaise .unicode (Utf8.decodeStrict (slice wsMsg first second))
  pure (channel, spans wsMsg offsets.tail)

variable {msgList : List Bytes} {channel : List Char} {frame : Bytes}

theorem words_bounds {order : Order} {width start : Nat} {parts : List Bytes}
    (hcount : parts.length < start) :
    (words order width ((bounds start parts).length :: bounds start parts)).isSome = true <->
      start + parts.flatten.length < 256 ^ width := by
  rw [words_isSome, List.forall_mem_cons, bounds_length]
  constructor
  · intro h
    exact h.right _ (by simp [bounds])
  · intro h
    exact ⟨by omega, fun n hn => (le_of_mem_bounds hn).trans_lt h⟩

theorem deserialize_v1 {start : Nat} {table : Bytes}
    (htable : words .little 8 ((bounds start (Utf8.encode channel :: msgList)).length ::
      bounds start (Utf8.encode channel :: msgList)) = some table)
    (hstart : table.length = start) :
    deserializeMsgFromWsV1 (table ++ (Utf8.encode channel ++ msgList.flatten)) =
      .ok (channel, msgList) := by
  have hcount := wordAt_words htable (Utf8.encode channel ++ msgList.flatten)
    (List.getElem?_cons_zero ..)
  have hoffsets := map_wordAt_words htable (Utf8.encode channel ++ msgList.flatten)
  have hslice := slice_part table (Utf8.encode channel) msgList.flatten
  have hspans := spans_bounds msgList (table ++ Utf8.encode channel)
  rw [List.append_assoc, List.length_append, hstart] at hspans
  rw [hstart] at hslice
  have hdecode : Utf8.decodeStrict (Utf8.encode channel) = some channel :=
    Utf8.decodeStrict_eq_some.mpr rfl
  have hbounds : bounds start (Utf8.encode channel :: msgList) =
      start :: (start + (Utf8.encode channel).length) ::
        (bounds (start + (Utf8.encode channel).length) msgList).tail := by
    rw [bounds_cons, ← bounds_eq_cons]
  simp only [deserializeMsgFromWsV1, hcount, hoffsets]
  rw [hbounds, List.getElem?_cons_zero, List.getElem?_cons_succ, List.getElem?_cons_zero,
    List.tail_cons, ← bounds_eq_cons, hspans]
  simp only [orRaise_some, Fallible.ok_bind, hslice, hdecode]
  rfl

/-- What is framed is read back as it was, and all is framed whose last offset a word holds. -/
theorem v1_roundTrip (msgList : List Bytes) (channel : List Char) :
    (serializeMsgToWsV1 msgList channel >>= deserializeMsgFromWsV1) =
      if 8 * (1 + 1 + msgList.length + 1) + (Utf8.encode channel).length +
          msgList.flatten.length < 2 ^ 64 then
        .ok (channel, msgList)
      else .error .overflow := by
  have hsome := @words_bounds .little 8 (8 * (1 + 1 + msgList.length + 1))
    (Utf8.encode channel :: msgList) (by rw [List.length_cons]; omega)
  rw [List.flatten_cons, List.length_append, ← Nat.add_assoc] at hsome
  rw [serializeMsgToWsV1]
  split
  · next hfits =>
      rcases Option.isSome_iff_exists.mp (hsome.mpr hfits) with ⟨table, htable⟩
      simp only [htable, orRaise_some, Fallible.ok_bind]
      refine deserialize_v1 htable ?_
      rw [words_length htable, List.length_cons, bounds_length, List.length_cons]
      omega
  · next hfits =>
      have hnone := Option.not_isSome_iff_eq_none.mp fun h => hfits (hsome.mp h)
      simp only [hnone]
      rfl

/-!
## The default protocol
-/

/-- `json.dumps`, and `json.loads` of a text and of bytes. -/
structure JsonText (message : Type) where
  dumps : message -> List Char
  loads : List Char -> Except String message
  loadsBytes : Bytes -> Except String message

namespace JsonText

variable {message : Type}

/-- A message that `json.loads` makes of what `json.dumps` makes of it. -/
structure Reads (json : JsonText message) (m : message) : Prop where
  loads : json.loads (json.dumps m) = .ok m
  loadsBytes : json.loadsBytes (Utf8.encode (json.dumps m)) = .ok m

end JsonText

/-- A message but for its buffers, and these; to have none is to have no `buffers`. -/
structure Message (message : Type) where
  body : message
  buffers : List Bytes
  deriving DecidableEq

inductive WsMsg where
  | text (text : List Char)
  | binary (bytes : Bytes)

variable {message : Type} (json : JsonText message)

/-- `raise` where a parse fails. -/
def parsed : Except String message -> Except FrameError message
  | .ok m => .ok m
  | .error text => .error (.json text)

/-- The rest of `serialize_msg_to_ws_default`, once the JSON text heads the buffers. -/
def frameBuffers (buffers : List Bytes) : Except FrameError Bytes := do
  let nbufs := buffers.length
  let offsets := starts (4 * (nbufs + 1)) buffers
  let totalSize := 4 * (nbufs + 1) + buffers.flatten.length
  let msgBuf := List.replicate totalSize 0
  let count <- orRaise .overflow (toBytes .big 4 nbufs)
  let msgBuf := overwrite msgBuf 0 count
  let table <- orRaise .overflow (offsets.mapM (toBytes .big 4))
  let msgBuf := overwriteEach msgBuf (table.zipIdx.map fun word => (4 * (word.2 + 1), word.1))
  pure (overwriteEach msgBuf (offsets.zip buffers))

def serializeMsgToWsDefault (msg : Message message) : Except FrameError Bytes :=
  frameBuffers (Utf8.encode (json.dumps msg.body) :: msg.buffers)

/-- The buffers from the `i`-th on, each up to the next one or to the end. -/
def chunks (wsMsg : Bytes) : Nat -> List Nat -> Except FrameError (List Bytes)
  | _, [] => .ok []
  | i, start :: rest =>
      let stop := rest.headD wsMsg.length
      if start ≤ stop ∧ stop ≤ wsMsg.length then
        (chunks wsMsg (i + 1) rest).map (slice wsMsg start stop :: ·)
      else .error (.chunkOffsets i)

def deserializeMsgFromWsDefault : WsMsg -> Except FrameError (Message message)
  | .text text => do
      let body <- parsed (json.loadsBytes (Utf8.encode text))
      pure { body, buffers := [] }
  | .binary wsMsg => do
      let nbufs := wordAt .big 4 wsMsg 0
      if nbufs < 2 then .error .unsupportedBuffers
      else
        let offsets := (List.range nbufs).map fun i => wordAt .big 4 wsMsg (i + 1)
        let jsonStart <- orRaise .index offsets[0]?
        let jsonStop <- orRaise .index offsets[1]?
        if jsonStart ≤ jsonStop ∧ jsonStop ≤ wsMsg.length then
          let text <- orRaise .unicode (Utf8.decodeStrict (slice wsMsg jsonStart jsonStop))
          let body <- parsed (json.loads text)
          let buffers <- chunks wsMsg 1 offsets.tail
          pure { body, buffers }
        else .error .jsonOffsets

/-- `WSSession.send` with the default protocol. -/
def send (msg : Message message) : Except FrameError WsMsg :=
  match msg.buffers with
  | [] => .ok (.text (json.dumps msg.body))
  | _ :: _ => (serializeMsgToWsDefault json msg).map .binary

/-- A frame with the parts, which follow one another behind their table. -/
def defaultFrame (parts : List Bytes) : Option Bytes :=
  (words .big 4 (parts.length :: starts (4 * (parts.length + 1)) parts)).map (· ++ parts.flatten)

theorem overwriteEach_frame {count : Bytes} {parts table : List Bytes}
    (hcount : count.length = 4) (htable : forall word, word ∈ table -> word.length = 4)
    (hlength : table.length = parts.length) :
    overwriteEach (overwriteEach
        (overwrite (List.replicate (4 * (parts.length + 1) + parts.flatten.length) 0) 0 count)
        (table.zipIdx.map fun word => (4 * (word.2 + 1), word.1)))
      ((starts (4 * (parts.length + 1)) parts).zip parts) =
      count ++ (table.flatten ++ parts.flatten) := by
  have hwords : table.flatten.length = 4 * parts.length := by
    rw [flatten_length htable, hlength]
  have hzero : List.replicate (4 * (parts.length + 1) + parts.flatten.length) (0 : UInt8) =
      List.replicate 4 0 ++ (List.replicate (4 * parts.length) 0 ++
        List.replicate parts.flatten.length 0) := by
    rw [← List.replicate_add, ← List.replicate_add]
    congr 1
    omega
  -- the count, the table behind it, and the parts behind both
  have hlengths (n : Nat) : (List.replicate n (0 : UInt8)).length = n := List.length_replicate
  have hfirst := overwrite_at ((hlengths 4).trans hcount.symm) []
    (List.replicate (4 * parts.length) 0 ++ List.replicate parts.flatten.length 0)
  have hsecond := overwriteEach_starts ((hlengths _).trans hwords.symm) count
    (List.replicate parts.flatten.length 0)
  have hthird := overwriteEach_starts (hlengths parts.flatten.length) (count ++ table.flatten) []
  rw [hcount] at hsecond
  rw [List.length_append, hcount, hwords, List.append_nil, List.append_nil] at hthird
  rw [List.nil_append, List.nil_append, List.length_nil] at hfirst
  rw [hzero, hfirst, zipIdx_starts 0 htable, Nat.mul_succ, Nat.mul_zero, Nat.zero_add, hsecond,
    ← List.append_assoc, Nat.mul_succ, Nat.add_comm, hthird, List.append_assoc]

theorem frameBuffers_eq (parts : List Bytes) :
    frameBuffers parts = orRaise .overflow (defaultFrame parts) := by
  rw [frameBuffers, defaultFrame]
  cases hcount : toBytes .big 4 parts.length with
  | none =>
      rw [words, List.mapM_cons, hcount]
      rfl
  | some count =>
      cases htable : (starts (4 * (parts.length + 1)) parts).mapM (toBytes .big 4) with
      | none =>
          rw [words, List.mapM_cons, hcount, htable]
          rfl
      | some table =>
          have hlength : table.length = parts.length := by
            rw [← (Fallible.mapM_some_iff.mp htable).length_eq, starts_length]
          have hframe := overwriteEach_frame (toBytes_length hcount)
            (fun word => mapM_toBytes_length htable) hlength
          have hrest : words .big 4 (starts (4 * (parts.length + 1)) parts) =
              some table.flatten := congrArg (Option.map List.flatten) htable
          rw [words_cons.mpr ⟨_, _, hcount, hrest, rfl⟩]
          simp only [orRaise_some, Fallible.ok_bind, hframe, Option.map_some, List.append_assoc]
          rfl

theorem chunks_starts {parts : List Bytes} (i : Nat) (front : Bytes) :
    chunks (front ++ parts.flatten) i (starts front.length parts) = .ok parts := by
  induction parts generalizing i front with
  | nil => rfl
  | cons part rest ih =>
      have hnext := ih (i + 1) (front ++ part)
      rw [List.append_assoc, List.length_append] at hnext
      have hstop : (starts (front.length + part.length) rest).headD
          (front ++ (part ++ rest.flatten)).length = front.length + part.length := by
        cases rest with
        | nil => simp [starts]
        | cons next rest => rfl
      have hwithin : front.length ≤ front.length + part.length ∧
          front.length + part.length ≤ (front ++ (part ++ rest.flatten)).length := by
        simp only [List.length_append]
        omega
      simp only [starts, chunks, List.flatten_cons]
      rw [hstop, if_pos hwithin, hnext, slice_part]
      rfl

theorem chunks_ok {wsMsg : Bytes} : forall {rest : List Nat} {i start : Nat} {buffers : List Bytes},
    chunks wsMsg i (start :: rest) = .ok buffers ->
      start ≤ wsMsg.length ∧ buffers.flatten = wsMsg.drop start ∧
        starts start buffers = start :: rest := by
  intro rest
  induction rest with
  | nil =>
      intro i start buffers h
      rw [chunks, List.headD_nil] at h
      by_cases hwithin : start ≤ wsMsg.length
      · rw [if_pos ⟨hwithin, le_rfl⟩] at h
        cases h
        rw [List.flatten_singleton, slice_all]
        exact ⟨hwithin, rfl, rfl⟩
      · rw [if_neg fun h => hwithin h.left] at h
        cases h
  | cons next rest ih =>
      intro i start buffers h
      rw [chunks, List.headD_cons] at h
      split at h
      · next hwithin =>
          rcases Fallible.map_ok h with ⟨others, hothers, rfl⟩
          rcases ih hothers with ⟨_, hflat, hstarts⟩
          have hjoin := slice_join hwithin.left hwithin.right le_rfl
          rw [slice_all, slice_all] at hjoin
          rw [List.flatten_cons, hflat, hjoin, starts, slice_length hwithin.right,
            Nat.add_sub_cancel' hwithin.left, hstarts]
          exact ⟨hwithin.left.trans hwithin.right, rfl, rfl⟩
      · cases h

variable {json} {msg : Message message}

theorem defaultFrame_eq_some {parts : List Bytes} (h : defaultFrame parts = some frame) :
    exists table, frame = table ++ parts.flatten ∧ table.length = 4 * (parts.length + 1) ∧
      words .big 4 (parts.length :: starts (4 * (parts.length + 1)) parts) = some table := by
  rcases Option.map_eq_some_iff.mp h with ⟨table, htable, rfl⟩
  refine ⟨table, rfl, ?_, htable⟩
  rw [words_length htable, List.length_cons, starts_length]

theorem defaultFrame_isSome {first : Bytes} {rest : List Bytes} (hrest : rest ≠ []) :
    (defaultFrame (first :: rest)).isSome = true <->
      4 * (rest.length + 2) + first.length + rest.dropLast.flatten.length < 2 ^ 32 := by
  have hlast := @forall_starts_lt (2 ^ 32) (first :: rest) (4 * (rest.length + 2))
    (List.cons_ne_nil first rest)
  rw [List.dropLast_cons_of_ne_nil hrest, List.flatten_cons, List.length_append,
    ← Nat.add_assoc] at hlast
  rw [defaultFrame, Option.isSome_map, words_isSome, List.forall_mem_cons, List.length_cons,
    ← hlast]
  refine and_iff_right_of_imp fun h => ?_
  have hstart := h (4 * (rest.length + 2)) (by simp [starts])
  omega

theorem deserialize_frame (hreads : json.Reads msg.body) (hbuffers : msg.buffers ≠ [])
    (hframe : defaultFrame (Utf8.encode (json.dumps msg.body) :: msg.buffers) = some frame) :
    deserializeMsgFromWsDefault json (.binary frame) = .ok msg := by
  rcases msg with ⟨body, buffers⟩
  rcases defaultFrame_eq_some hframe with ⟨table, rfl, hlength, htable⟩
  rcases List.exists_cons_of_ne_nil hbuffers with ⟨first, others, rfl⟩
  have hcount := wordAt_words htable (List.flatten (Utf8.encode (json.dumps body) ::
    first :: others)) (List.getElem?_cons_zero ..)
  have hoffsets := map_wordAt_words htable (List.flatten (Utf8.encode (json.dumps body) ::
    first :: others))
  have hslice := slice_part table (Utf8.encode (json.dumps body)) (first :: others).flatten
  have hchunks := @chunks_starts (first :: others) 1 (table ++ Utf8.encode (json.dumps body))
  have hwithin : table.length ≤ table.length + (Utf8.encode (json.dumps body)).length ∧
      table.length + (Utf8.encode (json.dumps body)).length ≤
        (table ++ (Utf8.encode (json.dumps body) ++ (first :: others).flatten)).length := by
    simp only [List.length_append]
    omega
  have hdecode : Utf8.decodeStrict (Utf8.encode (json.dumps body)) = some (json.dumps body) :=
    Utf8.decodeStrict_eq_some.mpr rfl
  rw [List.flatten_cons] at hcount hoffsets
  rw [← hlength, starts_length, starts] at hoffsets
  rw [List.append_assoc, List.length_append, starts] at hchunks
  rw [starts] at hoffsets
  have hmany : ¬(Utf8.encode (json.dumps body) :: first :: others).length < 2 := by
    simp
  simp only [List.flatten_cons (l := Utf8.encode (json.dumps body)), deserializeMsgFromWsDefault,
    hcount, hoffsets, if_neg hmany, List.getElem?_cons_zero, List.getElem?_cons_succ, orRaise_some,
    Fallible.ok_bind, if_pos hwithin, hslice, hdecode, hreads.loads, parsed, List.tail_cons,
    hchunks]
  rfl

theorem send_roundTrip (hreads : json.Reads msg.body) :
    (send json msg >>= deserializeMsgFromWsDefault json) =
      if msg.buffers = [] ∨ 4 * (msg.buffers.length + 2) +
          (Utf8.encode (json.dumps msg.body)).length + msg.buffers.dropLast.flatten.length < 2 ^ 32
        then .ok msg
      else .error .overflow := by
  rcases msg with ⟨body, buffers⟩
  cases buffers with
  | nil =>
      simp only [send, Fallible.ok_bind, deserializeMsgFromWsDefault, hreads.loadsBytes]
      rfl
  | cons first others =>
      have hsome := @defaultFrame_isSome (Utf8.encode (json.dumps body)) (first :: others)
        (List.cons_ne_nil first others)
      simp only [send, serializeMsgToWsDefault, frameBuffers_eq]
      split
      · next hfits =>
          rcases Option.isSome_iff_exists.mp
            (hsome.mpr (hfits.resolve_left (List.cons_ne_nil first others))) with ⟨frame, hframe⟩
          rw [hframe]
          exact deserialize_frame hreads (List.cons_ne_nil first others) hframe
      · next hfits =>
          have hnone := Option.not_isSome_iff_eq_none.mp fun h => hfits (Or.inr (hsome.mp h))
          rw [hnone]
          rfl

/-- JSON texts of which one, `{}`, is of interest. -/
def emptyObject : JsonText Unit where
  dumps _ := "{}".toList
  loads text := if text = "{}".toList then .ok () else .error "Expecting value"
  loadsBytes bytes := if bytes = [0x7B, 0x7D] then .ok () else .error "Expecting value"

theorem emptyObject_reads : emptyObject.Reads () := ⟨rfl, rfl⟩

theorem send_roundTrip_buffers :
    (send emptyObject ⟨(), [[1, 2], [3]]⟩ >>= deserializeMsgFromWsDefault emptyObject) =
      .ok ⟨(), [[1, 2], [3]]⟩ :=
  (send_roundTrip emptyObject_reads).trans (if_pos (by decide))

theorem parsed_eq_ok {o : Except String message} {m : message} :
    parsed o = .ok m <-> o = .ok m := by
  cases o with
  | error text => exact iff_of_false (fun h => by cases h) fun h => by cases h
  | ok m' => exact ⟨fun h => by cases h; rfl, fun h => by cases h; rfl⟩

theorem accepted_parts (h : deserializeMsgFromWsDefault json (.binary frame) = .ok msg) :
    exists n rest text, wordAt .big 4 frame 0 = n + 2 ∧
      (List.range (n + 2)).map (fun i => wordAt .big 4 frame (i + 1)) =
        wordAt .big 4 frame 1 :: wordAt .big 4 frame 2 :: rest ∧
      (wordAt .big 4 frame 1 ≤ wordAt .big 4 frame 2 ∧ wordAt .big 4 frame 2 ≤ frame.length) ∧
      slice frame (wordAt .big 4 frame 1) (wordAt .big 4 frame 2) = Utf8.encode text ∧
      json.loads text = .ok msg.body ∧
      chunks frame 1 (wordAt .big 4 frame 2 :: rest) = .ok msg.buffers := by
  simp only [deserializeMsgFromWsDefault] at h
  by_cases hmany : wordAt .big 4 frame 0 < 2
  · rw [if_pos hmany] at h
    cases h
  rcases Nat.exists_eq_add_of_le' (Nat.le_of_not_lt hmany) with ⟨n, hn⟩
  have hoffsets : (List.range (n + 2)).map (fun i => wordAt .big 4 frame (i + 1)) =
      wordAt .big 4 frame 1 :: wordAt .big 4 frame 2 ::
        (List.range n).map (fun i => wordAt .big 4 frame (i + 3)) := by
    rw [List.range_succ_eq_map, List.range_succ_eq_map]
    simp [Function.comp_def]
  rw [if_neg hmany, hn, hoffsets] at h
  simp only [List.getElem?_cons_zero, List.getElem?_cons_succ, orRaise_some, Fallible.ok_bind,
    List.tail_cons] at h
  split at h
  · next hwithin =>
      rcases Fallible.bind_ok h with ⟨text, htext, h⟩
      rcases Fallible.bind_ok h with ⟨body, hbody, h⟩
      rcases Fallible.bind_ok h with ⟨buffers, hbuffers, h⟩
      cases h
      exact ⟨n, _, text, hn, hoffsets, hwithin,
        Utf8.decodeStrict_eq_some.mp (orRaise_eq_ok.mp htext), parsed_eq_ok.mp hbody, hbuffers⟩
  · cases h

/-- No byte behind the start of an accepted frame's JSON text is lost, read twice or read out of
place, and a frame whose text begins right behind the table is the one that its parts make. -/
theorem accepted_tiled (h : deserializeMsgFromWsDefault json (.binary frame) = .ok msg) :
    exists text, json.loads text = .ok msg.body ∧
      Utf8.encode text ++ msg.buffers.flatten = frame.drop (wordAt .big 4 frame 1) ∧
      (wordAt .big 4 frame 1 = 4 * (wordAt .big 4 frame 0 + 1) <->
        defaultFrame (Utf8.encode text :: msg.buffers) = some frame) := by
  rcases accepted_parts h with ⟨n, rest, text, hn, hoffsets, hwithin, htext, hloads, hchunks⟩
  rcases chunks_ok hchunks with ⟨_, hflat, hstarts⟩
  have hjoin := slice_join hwithin.left hwithin.right le_rfl
  rw [slice_all, slice_all] at hjoin
  have hall : starts (wordAt .big 4 frame 1) (Utf8.encode text :: msg.buffers) =
      (List.range (n + 2)).map fun i => wordAt .big 4 frame (i + 1) := by
    rw [hoffsets, starts, ← htext, slice_length hwithin.right, Nat.add_sub_cancel' hwithin.left,
      hstarts]
  have hcount : (Utf8.encode text :: msg.buffers).length = n + 2 := by
    have hlength := congrArg List.length hall
    rwa [starts_length, List.length_map, List.length_range] at hlength
  refine ⟨text, hloads, ?_, fun hfirst => ?_, fun hframe => ?_⟩
  · rw [hflat, ← htext, hjoin]
  · rw [hn] at hfirst
    have htable := words_wordAt .big 4 (n + 2 + 1) frame (by omega)
    have hnumbers : (List.range (n + 2 + 1)).map (wordAt .big 4 frame) =
        (n + 2) :: starts (4 * (n + 2 + 1)) (Utf8.encode text :: msg.buffers) := by
      rw [List.range_succ_eq_map, List.map_cons, List.map_map, hn, ← hfirst, hall]
      rfl
    rw [hnumbers] at htable
    rw [defaultFrame, hcount, htable, Option.map_some, List.flatten_cons, hflat, ← htext, hjoin,
      hfirst, List.take_append_drop]
  · rcases defaultFrame_eq_some hframe with ⟨table, rfl, hlength, htable⟩
    rw [starts] at htable
    rw [wordAt_words htable _ (by rfl), wordAt_words htable _ (by rfl)]

def gapFrame : Bytes := [0, 0, 0, 2, 0, 0, 0, 13, 0, 0, 0, 15, 0xFF, 0x7B, 0x7D, 1, 2]

theorem gapFrame_accepted :
    deserializeMsgFromWsDefault emptyObject (.binary gapFrame) = .ok ⟨(), [[1, 2]]⟩ := by
  rfl

theorem accepted_tiled_gap : exists text, emptyObject.loads text = .ok () ∧
    Utf8.encode text ++ [1, 2] = [0x7B, 0x7D, 1, 2] ∧
      (13 = 4 * (2 + 1) <-> defaultFrame [Utf8.encode text, [1, 2]] = some gapFrame) :=
  accepted_tiled gapFrame_accepted

end Kernel
end MightyColab
