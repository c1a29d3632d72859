import Mathlib.Algebra.Group.Nat.Defs
import Mathlib.Data.List.Basic

/-!
# UTF-8 with replacement

`bytes.decode("utf-8", errors="replace")`. Each byte that starts no character, and each start
of a character that the bytes after it do not complete, is read as one U+FFFD. A text whose
bytes are followed by more is read back as it is, whatever follows.
-/

namespace MightyColab
namespace Lib
namespace Utf8

/-- `str.encode()`. -/
def encode (text : List Char) : List UInt8 := text.flatMap String.utf8EncodeChar

def replacement : Char := Char.ofNat 0xFFFD

def tail : Nat × Nat := (0x80, 0xBF)

def following (first : Nat) : Option (List (Nat × Nat)) :=
  if first < 0x80 then some []
  else if first < 0xC2 then none
  else if first < 0xE0 then some [tail]
  else if first = 0xE0 then some [(0xA0, 0xBF), tail]
  else if first = 0xED then some [(0x80, 0x9F), tail]
  else if first < 0xF0 then some [tail, tail]
  else if first = 0xF0 then some [(0x90, 0xBF), tail, tail]
  else if first < 0xF4 then some [tail, tail, tail]
  else if first = 0xF4 then some [(0x80, 0x8F), tail, tail]
  else none

def fitting : List (Nat × Nat) -> List UInt8 -> Nat
  | (low, high) :: ranges, b :: rest =>
      if low ≤ b.toNat ∧ b.toNat ≤ high then fitting ranges rest + 1 else 0
  | _, _ => 0

def leading (first : Nat) : Nat -> Nat
  | 0 => first
  | more => first % 2 ^ (6 - more)

def assemble (first : Nat) (more : List UInt8) : Char :=
  Char.ofNat (more.foldl (fun v b => v * 64 + b.toNat % 64) (leading first more.length))

def readAt (first : UInt8) (rest : List UInt8) : Char × Nat :=
  match following first.toNat with
  | none => (replacement, 0)
  | some ranges =>
      let n := fitting ranges rest
      if n = ranges.length then (assemble first.toNat (rest.take n), n) else (replacement, n)

/-- `skip` bytes still belong to what was read last. -/
def decodeFrom : Nat -> List UInt8 -> List Char
  | _, [] => []
  | skip + 1, _ :: rest => decodeFrom skip rest
  | 0, first :: rest => (readAt first rest).1 :: decodeFrom (readAt first rest).2 rest

def decode (bytes : List UInt8) : List Char := decodeFrom 0 bytes

/-!
## Reading a text back
-/

@[simp] theorem encode_nil : encode [] = [] := rfl

theorem encode_cons (c : Char) (text : List Char) :
    encode (c :: text) = String.utf8EncodeChar c ++ encode text := rfl

@[simp] theorem decode_nil : decode [] = [] := rfl

theorem decodeFrom_skip (more rest : List UInt8) :
    decodeFrom more.length (more ++ rest) = decode rest := by
  induction more with
  | nil => rfl
  | cons b more ih => exact ih

theorem decode_read {c : Char} {first : UInt8} {more rest : List UInt8}
    (h : readAt first (more ++ rest) = (c, more.length)) :
    decode (first :: (more ++ rest)) = c :: decode rest := by
  rw [decode, decodeFrom, h]
  exact congrArg _ (decodeFrom_skip more rest)

def Completes (ranges : List (Nat × Nat)) (more : List UInt8) : Prop :=
  List.Forall₂ (fun range b => range.1 ≤ b.toNat ∧ b.toNat ≤ range.2) ranges more

theorem fitting_completes {ranges : List (Nat × Nat)} {more : List UInt8}
    (h : Completes ranges more) (rest : List UInt8) :
    fitting ranges (more ++ rest) = more.length ∧ more.length = ranges.length := by
  induction h with
  | nil => exact ⟨by cases rest <;> rfl, rfl⟩
  | @cons range b ranges more hin _ ih =>
      rw [List.cons_append, fitting, if_pos hin, ih.left]
      exact ⟨rfl, congrArg (· + 1) ih.right⟩

theorem readAt_completes {first : UInt8} {ranges : List (Nat × Nat)} {more : List UInt8}
    (hfirst : following first.toNat = some ranges) (hmore : Completes ranges more)
    (rest : List UInt8) :
    readAt first (more ++ rest) = (assemble first.toNat more, more.length) := by
  have hfit := fitting_completes hmore rest
  rw [readAt, hfirst]
  simp only [hfit.left, if_pos hfit.right, List.take_left']

theorem toNat_ofNat {n : Nat} (h : n < 256) : (UInt8.ofNat n).toNat = n := by
  rw [UInt8.toNat_ofNat']
  exact Nat.mod_eq_of_lt h

theorem tail_ofNat (n : Nat) :
    tail.1 ≤ (UInt8.ofNat (n % 64 + 0x80)).toNat ∧
      (UInt8.ofNat (n % 64 + 0x80)).toNat ≤ tail.2 := by
  rw [toNat_ofNat (by omega), tail]
  omega

/-- The second of three bytes, which neither a shorter text of the same character nor a
surrogate passes. -/
theorem following_three {v : Nat} (hlow : 0x800 ≤ v) (hhigh : v < 0x10000)
    (hbound : v < 0xD800 ∨ 0xE000 ≤ v) :
    exists range, following (v / 4096 % 16 + 0xE0) = some [range, tail] ∧
      range.1 ≤ v / 64 % 64 + 0x80 ∧ v / 64 % 64 + 0x80 ≤ range.2 := by
  unfold following
  by_cases hfirst : v / 4096 % 16 = 0
  · exact ⟨(0xA0, 0xBF), by simp [hfirst], by omega, by omega⟩
  by_cases hsurrogate : v / 4096 % 16 = 13
  · exact ⟨(0x80, 0x9F), by simp [hsurrogate], by omega, by omega⟩
  · exact ⟨tail, by grind, by simp [tail], by simp [tail]; omega⟩

theorem following_four {v : Nat} (hlow : 0x10000 ≤ v) (hhigh : v < 0x110000) :
    exists range, following (v / 262144 % 8 + 0xF0) = some [range, tail, tail] ∧
      range.1 ≤ v / 4096 % 64 + 0x80 ∧ v / 4096 % 64 + 0x80 ≤ range.2 := by
  unfold following
  by_cases hfirst : v / 262144 % 8 = 0
  · exact ⟨(0x90, 0xBF), by simp [hfirst], by omega, by omega⟩
  by_cases hlast : v / 262144 % 8 = 4
  · exact ⟨(0x80, 0x8F), by simp [hlast], by omega, by omega⟩
  · exact ⟨tail, by grind, by simp [tail], by simp [tail]; omega⟩

theorem readAt_one {v : Nat} (hv : v ≤ 0x7F) (rest : List UInt8) :
    readAt (UInt8.ofNat v) rest = (Char.ofNat v, 0) := by
  have hfirst : (UInt8.ofNat v).toNat = v := toNat_ofNat (by omega)
  have hfollow : following (UInt8.ofNat v).toNat = some [] := by
    rw [hfirst, following, if_pos (by omega)]
  have hread := readAt_completes hfollow .nil rest
  rw [hfirst] at hread
  exact hread

theorem readAt_two {v : Nat} (hlow : 0x7F < v) (hhigh : v ≤ 0x7FF) (rest : List UInt8) :
    readAt (UInt8.ofNat (v / 64 % 0x20 + 0xC0)) (UInt8.ofNat (v % 0x40 + 0x80) :: rest) =
      (Char.ofNat v, 1) := by
  have hfirst : (UInt8.ofNat (v / 64 % 0x20 + 0xC0)).toNat = v / 64 % 0x20 + 0xC0 :=
    toNat_ofNat (by omega)
  have hfollow : following (UInt8.ofNat (v / 64 % 0x20 + 0xC0)).toNat = some [tail] := by
    rw [hfirst, following, if_neg (by omega), if_neg (by omega), if_pos (by omega)]
  have hread := readAt_completes hfollow (.cons (tail_ofNat v) .nil) rest
  rw [hfirst] at hread
  refine hread.trans (congrArg (fun c => (Char.ofNat c, 1)) ?_)
  rw [List.foldl_cons, List.foldl_nil, toNat_ofNat (by omega)]
  change (v / 64 % 0x20 + 0xC0) % 2 ^ 5 * 64 + (v % 0x40 + 0x80) % 64 = v
  omega

theorem readAt_three {v : Nat} (hlow : 0x7FF < v) (hhigh : v ≤ 0xFFFF)
    (hbound : v < 0xD800 ∨ 0xE000 ≤ v) (rest : List UInt8) :
    readAt (UInt8.ofNat (v / 4096 % 0x10 + 0xE0))
        (UInt8.ofNat (v / 64 % 0x40 + 0x80) :: UInt8.ofNat (v % 0x40 + 0x80) :: rest) =
      (Char.ofNat v, 2) := by
  have hfirst : (UInt8.ofNat (v / 4096 % 0x10 + 0xE0)).toNat = v / 4096 % 0x10 + 0xE0 :=
    toNat_ofNat (by omega)
  have hsecond : (UInt8.ofNat (v / 64 % 0x40 + 0x80)).toNat = v / 64 % 0x40 + 0x80 :=
    toNat_ofNat (by omega)
  rcases following_three hlow (Nat.lt_succ_of_le hhigh) hbound with ⟨range, hfollow, hin⟩
  rw [← hfirst] at hfollow
  rw [← hsecond] at hin
  have hread := readAt_completes hfollow (.cons hin (.cons (tail_ofNat v) .nil)) rest
  rw [hfirst] at hread
  refine hread.trans (congrArg (fun c => (Char.ofNat c, 2)) ?_)
  rw [List.foldl_cons, List.foldl_cons, List.foldl_nil, hsecond, toNat_ofNat (by omega)]
  change ((v / 4096 % 0x10 + 0xE0) % 2 ^ 4 * 64 + (v / 64 % 0x40 + 0x80) % 64) * 64 +
    (v % 0x40 + 0x80) % 64 = v
  omega

theorem readAt_four {v : Nat} (hlow : 0xFFFF < v) (hhigh : v < 0x110000) (rest : List UInt8) :
    readAt (UInt8.ofNat (v / 262144 % 0x08 + 0xF0))
        (UInt8.ofNat (v / 4096 % 0x40 + 0x80) :: UInt8.ofNat (v / 64 % 0x40 + 0x80) ::
          UInt8.ofNat (v % 0x40 + 0x80) :: rest) =
      (Char.ofNat v, 3) := by
  have hfirst : (UInt8.ofNat (v / 262144 % 0x08 + 0xF0)).toNat = v / 262144 % 0x08 + 0xF0 :=
    toNat_ofNat (by omega)
  have hsecond : (UInt8.ofNat (v / 4096 % 0x40 + 0x80)).toNat = v / 4096 % 0x40 + 0x80 :=
    toNat_ofNat (by omega)
  have hthird : (UInt8.ofNat (v / 64 % 0x40 + 0x80)).toNat = v / 64 % 0x40 + 0x80 :=
    toNat_ofNat (by omega)
  rcases following_four hlow hhigh with ⟨range, hfollow, hin⟩
  rw [← hfirst] at hfollow
  rw [← hsecond] at hin
  have hread := readAt_completes hfollow
    (.cons hin (.cons (tail_ofNat (v / 64)) (.cons (tail_ofNat v) .nil))) rest
  rw [hfirst] at hread
  refine hread.trans (congrArg (fun c => (Char.ofNat c, 3)) ?_)
  rw [List.foldl_cons, List.foldl_cons, List.foldl_cons, List.foldl_nil, hsecond, hthird,
    toNat_ofNat (by omega)]
  change (((v / 262144 % 0x08 + 0xF0) % 2 ^ 3 * 64 + (v / 4096 % 0x40 + 0x80) % 64) * 64 +
    (v / 64 % 0x40 + 0x80) % 64) * 64 + (v % 0x40 + 0x80) % 64 = v
  omega

theorem readAt_encodeChar (c : Char) (rest : List UInt8) :
    exists first more, String.utf8EncodeChar c = first :: more ∧
      readAt first (more ++ rest) = (c, more.length) := by
  have hbound : c.val.toNat < 0xD800 ∨ 0xDFFF < c.val.toNat ∧ c.val.toNat < 0x110000 := c.valid
  have hback : Char.ofNat c.val.toNat = c := Char.ofNat_toNat c
  unfold String.utf8EncodeChar
  generalize c.val.toNat = v at hbound hback
  rw [← hback]
  simp only
  split
  · next hone => exact ⟨_, _, rfl, readAt_one hone rest⟩
  split
  · next hone htwo => exact ⟨_, _, rfl, readAt_two (by omega) htwo rest⟩
  split
  · next htwo hthree => exact ⟨_, _, rfl, readAt_three (by omega) hthree (by omega) rest⟩
  · next hthree => exact ⟨_, _, rfl, readAt_four (by omega) (by omega) rest⟩

theorem decode_encode_append (text : List Char) (rest : List UInt8) :
    decode (encode text ++ rest) = text ++ decode rest := by
  induction text with
  | nil => rfl
  | cons c text ih =>
      rcases readAt_encodeChar c (encode text ++ rest) with ⟨first, more, henc, hread⟩
      rw [encode_cons, henc, List.append_assoc, List.cons_append, decode_read hread, ih]
      rfl

theorem decode_encode (text : List Char) : decode (encode text) = text := by
  simpa using decode_encode_append text []

def Whole (bytes : List UInt8) : Prop := encode (decode bytes) = bytes

instance (bytes : List UInt8) : Decidable (Whole bytes) :=
  inferInstanceAs (Decidable (_ = _))

/-- `bytes.decode("utf-8")`, which raises where the bytes are no text. -/
def decodeStrict (bytes : List UInt8) : Option (List Char) :=
  if Whole bytes then some (decode bytes) else none

theorem decodeStrict_eq_some {bytes : List UInt8} {text : List Char} :
    decodeStrict bytes = some text <-> bytes = encode text := by
  unfold decodeStrict
  constructor
  · intro h
    split at h
    · next hwhole =>
        cases h
        exact hwhole.symm
    · cases h
  · rintro rfl
    have hwhole : Whole (encode text) := congrArg encode (decode_encode text)
    rw [if_pos hwhole, decode_encode]

end Utf8
end Lib
end MightyColab
