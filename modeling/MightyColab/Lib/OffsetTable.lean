import MightyColab.Lib.Fallible
import Mathlib.Data.List.Basic
import Mathlib.Tactic.Ring

/-!
# Parts behind a table of offsets

A frame begins with words of one width, of which some say where its parts are. The parts
follow one another behind the words, so each ends where the next one begins.
-/

namespace MightyColab
namespace Lib
namespace OffsetTable

abbrev Bytes := List UInt8

/-!
## Words
-/

inductive Order where
  | little
  | big
  deriving DecidableEq

/-- The digits to the base 256, the lowest first, and no more than `width` of them. -/
def digits : Nat -> Nat -> Bytes
  | 0, _ => []
  | width + 1, n => UInt8.ofNat (n % 256) :: digits width (n / 256)

def ofDigits : Bytes -> Nat
  | [] => 0
  | b :: rest => b.toNat + 256 * ofDigits rest

/-- `int.from_bytes`. -/
def fromBytes : Order -> Bytes -> Nat
  | .little, bytes => ofDigits bytes
  | .big, bytes => ofDigits bytes.reverse

/-- `int.to_bytes`, which raises where the number does not fit. -/
def toBytes (order : Order) (width n : Nat) : Option Bytes :=
  if n < 256 ^ width then
    some (match order with
      | .little => digits width n
      | .big => (digits width n).reverse)
  else none

variable {order : Order} {width n start stop : Nat} {bytes front back word : Bytes}
  {parts : List Bytes} {numbers : List Nat}

@[simp] theorem digits_length : forall width n, (digits width n).length = width
  | 0, _ => rfl
  | width + 1, n => congrArg (· + 1) (digits_length width (n / 256))

theorem ofDigits_digits : forall width n, n < 256 ^ width -> ofDigits (digits width n) = n := by
  intro width
  induction width with
  | zero =>
      intro n h
      have hzero : n = 0 := by simpa using h
      rw [hzero]
      rfl
  | succ width ih =>
      intro n h
      have hrest : n / 256 < 256 ^ width := by
        rw [pow_succ] at h
        exact Nat.div_lt_of_lt_mul (by rwa [Nat.mul_comm])
      have hbyte : (UInt8.ofNat (n % 256)).toNat = n % 256 := by
        rw [UInt8.toNat_ofNat']
        omega
      rw [digits, ofDigits, ih _ hrest, hbyte]
      omega

theorem ofDigits_lt : forall bytes : Bytes, ofDigits bytes < 256 ^ bytes.length := by
  intro bytes
  induction bytes with
  | nil => exact Nat.one_pos
  | cons b rest ih =>
      have hbyte : b.toNat < 256 := b.toNat_lt
      rw [ofDigits, List.length_cons, pow_succ]
      omega

theorem digits_ofDigits (bytes : Bytes) : digits bytes.length (ofDigits bytes) = bytes := by
  induction bytes with
  | nil => rfl
  | cons b rest ih =>
      have hbyte : b.toNat < 256 := b.toNat_lt
      have hlow : (b.toNat + 256 * ofDigits rest) % 256 = b.toNat := by omega
      have hhigh : (b.toNat + 256 * ofDigits rest) / 256 = ofDigits rest := by omega
      rw [List.length_cons, ofDigits, digits, hlow, hhigh, ih, UInt8.ofNat_toNat]

theorem toBytes_length (h : toBytes order width n = some word) : word.length = width := by
  unfold toBytes at h
  split at h
  · cases order <;> cases h <;> simp
  · cases h

theorem toBytes_isSome : (toBytes order width n).isSome = true <-> n < 256 ^ width := by
  unfold toBytes
  split
  · next h => exact iff_of_true rfl h
  · next h => exact iff_of_false (fun h => by cases h) h

theorem fromBytes_toBytes (h : toBytes order width n = some word) : fromBytes order word = n := by
  unfold toBytes at h
  split at h
  · next hfits =>
      cases order <;> cases h
      · exact ofDigits_digits width n hfits
      · rw [fromBytes, List.reverse_reverse]
        exact ofDigits_digits width n hfits
  · cases h

theorem toBytes_fromBytes (order : Order) (bytes : Bytes) :
    toBytes order bytes.length (fromBytes order bytes) = some bytes := by
  cases order with
  | little =>
      rw [toBytes, fromBytes, if_pos (ofDigits_lt bytes), digits_ofDigits]
  | big =>
      have hlt := ofDigits_lt bytes.reverse
      have hdigits := digits_ofDigits bytes.reverse
      rw [List.length_reverse] at hlt hdigits
      rw [toBytes, fromBytes, if_pos hlt, hdigits, List.reverse_reverse]

/-!
## Slices
-/

/-- `bytes[start:stop]` for bounds that are not negative. -/
def slice (bytes : Bytes) (start stop : Nat) : Bytes := (bytes.take stop).drop start

theorem slice_shift (front bytes : Bytes) (start stop : Nat) :
    slice (front ++ bytes) (front.length + start) (front.length + stop) =
      slice bytes start stop := by
  rw [slice, slice, List.take_length_add_append, List.drop_length_add_append]

theorem slice_front (part back : Bytes) : slice (part ++ back) 0 part.length = part := by
  rw [slice, List.take_left, List.drop_zero]

theorem slice_part (front part back : Bytes) :
    slice (front ++ (part ++ back)) front.length (front.length + part.length) = part :=
  (slice_shift front (part ++ back) 0 part.length).trans (slice_front part back)

theorem slice_length (hstop : stop ≤ bytes.length) :
    (slice bytes start stop).length = stop - start := by
  rw [slice, List.length_drop, List.length_take, Nat.min_eq_left hstop]

theorem slice_all (bytes : Bytes) (start : Nat) :
    slice bytes start bytes.length = bytes.drop start := by
  rw [slice, List.take_length]

theorem slice_join {middle : Nat} (hstart : start ≤ middle) (hmiddle : middle ≤ stop)
    (hstop : stop ≤ bytes.length) :
    slice bytes start middle ++ slice bytes middle stop = slice bytes start stop := by
  have htake : bytes.take stop = bytes.take middle ++ (bytes.take stop).drop middle := by
    have hmin : bytes.take middle = (bytes.take stop).take middle := by
      rw [List.take_take, Nat.min_eq_left hmiddle]
    rw [hmin, List.take_append_drop]
  have hlength : (bytes.take middle).length = middle := by
    rw [List.length_take, Nat.min_eq_left (hmiddle.trans hstop)]
  have hdrop : (bytes.take middle ++ (bytes.take stop).drop middle).drop start =
      (bytes.take middle).drop start ++ (bytes.take stop).drop middle :=
    List.drop_append_of_le_length (hstart.trans_eq hlength.symm)
  rw [← htake] at hdrop
  exact hdrop.symm

/-!
## The table
-/

def words (order : Order) (width : Nat) (numbers : List Nat) : Option Bytes :=
  (numbers.mapM (toBytes order width)).map List.flatten

def wordAt (order : Order) (width : Nat) (bytes : Bytes) (i : Nat) : Nat :=
  fromBytes order (slice bytes (width * i) (width * (i + 1)))

theorem words_cons {table : Bytes} : words order width (n :: numbers) = some table <->
    exists word rest, toBytes order width n = some word ∧ words order width numbers = some rest ∧
      table = word ++ rest := by
  constructor
  · intro h
    rcases Option.map_eq_some_iff.mp h with ⟨all, hall, hflat⟩
    cases Fallible.mapM_some_iff.mp hall with
    | @cons _ word _ rest hword hrest =>
        refine ⟨word, rest.flatten, hword, ?_, hflat.symm⟩
        rw [words, Fallible.mapM_some_iff.mpr hrest, Option.map_some]
  · rintro ⟨word, rest, hword, hrest, rfl⟩
    rcases Option.map_eq_some_iff.mp hrest with ⟨all, hall, rfl⟩
    rw [words, Fallible.mapM_some_iff.mpr (.cons hword (Fallible.mapM_some_iff.mp hall)),
      Option.map_some, List.flatten_cons]

theorem mapM_toBytes_length {table : List Bytes}
    (h : numbers.mapM (toBytes order width) = some table)
    (hmem : word ∈ table) : word.length = width := by
  have hall := Fallible.mapM_some_iff.mp h
  clear h
  induction hall with
  | nil => cases hmem
  | cons hword _ ih =>
      rcases List.mem_cons.mp hmem with rfl | hmem
      · exact toBytes_length hword
      · exact ih hmem

theorem words_isSome :
    (words order width numbers).isSome = true <-> forall n, n ∈ numbers -> n < 256 ^ width := by
  rw [words, Option.isSome_map, Fallible.mapM_isSome]
  exact forall_congr' fun n => imp_congr_right fun _ => toBytes_isSome

theorem words_length {table : Bytes} (h : words order width numbers = some table) :
    table.length = width * numbers.length := by
  induction numbers generalizing table with
  | nil =>
      cases h
      rfl
  | cons n numbers ih =>
      rcases words_cons.mp h with ⟨word, rest, hword, hrest, rfl⟩
      rw [List.length_append, toBytes_length hword, ih hrest, List.length_cons]
      ring

theorem wordAt_succ {i : Nat} (h : word.length = width) (back : Bytes) :
    wordAt order width (word ++ back) (i + 1) = wordAt order width back i := by
  have hshift := slice_shift word back (width * i) (width * (i + 1))
  rw [h] at hshift
  rw [wordAt, show width * (i + 1) = width + width * i by ring,
    show width * (i + 1 + 1) = width + width * (i + 1) by ring, hshift, wordAt]

theorem wordAt_zero (h : word.length = width) (back : Bytes) :
    wordAt order width (word ++ back) 0 = fromBytes order word := by
  have hprefix := slice_front word back
  rw [h] at hprefix
  rw [wordAt, Nat.mul_zero, Nat.zero_add, Nat.mul_one, hprefix]

theorem wordAt_words {table : Bytes} {i : Nat} (h : words order width numbers = some table)
    (back : Bytes) (hi : numbers[i]? = some n) : wordAt order width (table ++ back) i = n := by
  induction numbers generalizing table i with
  | nil => cases hi
  | cons first numbers ih =>
      rcases words_cons.mp h with ⟨word, rest, hword, hrest, rfl⟩
      rw [List.append_assoc]
      cases i with
      | zero =>
          cases hi
          rw [wordAt_zero (toBytes_length hword), fromBytes_toBytes hword]
      | succ i =>
          rw [wordAt_succ (toBytes_length hword)]
          exact ih hrest hi

theorem map_wordAt_words {table : Bytes} (h : words order width (n :: numbers) = some table)
    (back : Bytes) :
    (List.range numbers.length).map (fun i => wordAt order width (table ++ back) (i + 1)) =
      numbers := by
  refine List.ext_getElem (by simp) fun i _ hi => ?_
  rw [List.getElem_map, List.getElem_range]
  exact wordAt_words h back (List.getElem?_eq_getElem hi)

theorem words_wordAt (order : Order) (width n : Nat) (bytes : Bytes)
    (h : width * n ≤ bytes.length) :
    words order width ((List.range n).map (wordAt order width bytes)) =
      some (bytes.take (width * n)) := by
  induction n generalizing bytes with
  | zero =>
      rw [Nat.mul_zero, List.take_zero]
      rfl
  | succ n ih =>
      rw [Nat.mul_succ] at h
      have hlength : (bytes.take width).length = width := by
        rw [List.length_take, Nat.min_eq_left (by omega)]
      have hrest := ih (bytes.drop width) (by rw [List.length_drop]; omega)
      have hword := toBytes_fromBytes order (bytes.take width)
      have hwords : (List.range (n + 1)).map (wordAt order width bytes) =
          fromBytes order (bytes.take width) ::
            (List.range n).map (wordAt order width (bytes.drop width)) := by
        have hsplit := List.take_append_drop width bytes
        rw [List.range_succ_eq_map, List.map_cons, List.map_map]
        refine congrArg₂ List.cons ?_ (List.map_congr_left fun i _ => ?_)
        · rw [← wordAt_zero hlength (bytes.drop width), hsplit]
        · rw [← wordAt_succ hlength (bytes.drop width), hsplit, Function.comp]
      rw [hlength] at hword
      rw [hwords, words_cons.mpr ⟨_, _, hword, hrest, rfl⟩, Nat.mul_succ, Nat.add_comm,
        List.take_add]

/-!
## The parts
-/

/-- Where each part begins, the first one at `start`. -/
def starts : Nat -> List Bytes -> List Nat
  | _, [] => []
  | start, part :: rest => start :: starts (start + part.length) rest

def bounds (start : Nat) (parts : List Bytes) : List Nat :=
  starts start parts ++ [start + parts.flatten.length]

def spans (bytes : Bytes) (bounds : List Nat) : List Bytes :=
  (bounds.zip bounds.tail).map fun span => slice bytes span.1 span.2

@[simp] theorem starts_length : forall start (parts : List Bytes),
    (starts start parts).length = parts.length
  | _, [] => rfl
  | start, part :: rest => congrArg (· + 1) (starts_length (start + part.length) rest)

@[simp] theorem bounds_length (start : Nat) (parts : List Bytes) :
    (bounds start parts).length = parts.length + 1 := by
  simp [bounds]

@[simp] theorem bounds_nil (start : Nat) : bounds start [] = [start] := rfl

theorem bounds_cons (start : Nat) (part : Bytes) (rest : List Bytes) :
    bounds start (part :: rest) = start :: bounds (start + part.length) rest := by
  simp [bounds, starts, Nat.add_assoc]

theorem bounds_eq_cons (start : Nat) (parts : List Bytes) :
    bounds start parts = start :: (bounds start parts).tail := by
  cases parts with
  | nil => rfl
  | cons part rest => rw [bounds_cons, List.tail_cons]

theorem le_of_mem_bounds {start : Nat} (h : n ∈ bounds start parts) :
    n ≤ start + parts.flatten.length := by
  induction parts generalizing start with
  | nil => exact (List.mem_singleton.mp h).le
  | cons part rest ih =>
      rw [bounds_cons, List.mem_cons] at h
      rw [List.flatten_cons, List.length_append]
      rcases h with rfl | h
      · exact Nat.le_add_right _ _
      · exact (ih h).trans_eq (Nat.add_assoc _ _ _)

theorem forall_starts_lt {limit : Nat} : forall {parts : List Bytes} (start : Nat), parts ≠ [] ->
    ((forall n, n ∈ starts start parts -> n < limit) <->
      start + parts.dropLast.flatten.length < limit) := by
  intro parts
  induction parts with
  | nil => exact fun _ h => absurd rfl h
  | cons part rest ih =>
      intro start _
      cases rest with
      | nil => simp [starts]
      | cons next rest =>
          have hrest := ih (start + part.length) (List.cons_ne_nil next rest)
          rw [starts, List.forall_mem_cons, hrest, List.dropLast_cons_cons, List.flatten_cons,
            List.length_append]
          omega

theorem spans_bounds (parts : List Bytes) (front : Bytes) :
    spans (front ++ parts.flatten) (bounds front.length parts) = parts := by
  induction parts generalizing front with
  | nil => rfl
  | cons part rest ih =>
      have hrest := ih (front ++ part)
      rw [List.append_assoc, List.length_append] at hrest
      rw [bounds_cons, spans, List.tail_cons, bounds_eq_cons, List.zip_cons_cons, ← bounds_eq_cons,
        List.map_cons, List.flatten_cons, slice_part]
      exact congrArg _ hrest

/-!
## A buffer that is written in place
-/

/-- `buffer[start:start+len(part)] = part`. -/
def overwrite (buffer : Bytes) (start : Nat) (part : Bytes) : Bytes :=
  buffer.take start ++ (part ++ buffer.drop (start + part.length))

def overwriteEach (buffer : Bytes) (places : List (Nat × Bytes)) : Bytes :=
  places.foldl (fun buffer place => overwrite buffer place.1 place.2) buffer

theorem overwrite_at {old part : Bytes} (h : old.length = part.length) (front back : Bytes) :
    overwrite (front ++ (old ++ back)) front.length part = front ++ (part ++ back) := by
  have hback : (front ++ (old ++ back)).drop (front.length + part.length) = back := by
    rw [← h, ← List.append_assoc, ← List.length_append, List.drop_left]
  rw [overwrite, List.take_left, hback]

theorem overwriteEach_starts {old : Bytes} (h : old.length = parts.flatten.length)
    (front back : Bytes) :
    overwriteEach (front ++ (old ++ back)) ((starts front.length parts).zip parts) =
      front ++ (parts.flatten ++ back) := by
  induction parts generalizing front old with
  | nil =>
      cases List.eq_nil_of_length_eq_zero h
      rfl
  | cons part rest ih =>
      rw [List.flatten_cons, List.length_append] at h
      have hold := List.take_append_drop part.length old
      have hfirst : (old.take part.length).length = part.length := by
        rw [List.length_take, Nat.min_eq_left (by omega)]
      have hrest : (old.drop part.length).length = rest.flatten.length := by
        rw [List.length_drop]
        omega
      have hnext := ih hrest (front ++ part)
      rw [List.length_append, List.append_assoc, List.append_assoc] at hnext
      rw [starts, List.zip_cons_cons, overwriteEach, List.foldl_cons, ← hold, List.append_assoc,
        overwrite_at hfirst]
      exact hnext.trans (by rw [List.flatten_cons, List.append_assoc])

theorem flatten_length (h : forall part, part ∈ parts -> part.length = width) :
    parts.flatten.length = width * parts.length := by
  induction parts with
  | nil => rfl
  | cons part rest ih =>
      rw [List.flatten_cons, List.length_append, h part List.mem_cons_self,
        ih fun part hmem => h part (List.mem_cons_of_mem _ hmem), List.length_cons, Nat.mul_succ,
        Nat.add_comm]

theorem zipIdx_starts : forall {parts : List Bytes} (k : Nat),
    (forall part, part ∈ parts -> part.length = width) ->
    (parts.zipIdx k).map (fun part => (width * (part.2 + 1), part.1)) =
      (starts (width * (k + 1)) parts).zip parts := by
  intro parts
  induction parts with
  | nil => exact fun _ _ => rfl
  | cons part rest ih =>
      intro k h
      have hpart : part.length = width := h part List.mem_cons_self
      have hrest := ih (k + 1) fun part hmem => h part (List.mem_cons_of_mem _ hmem)
      rw [List.zipIdx_cons, List.map_cons, hrest, starts, List.zip_cons_cons, hpart,
        ← Nat.mul_succ]

end OffsetTable
end Lib
end MightyColab
