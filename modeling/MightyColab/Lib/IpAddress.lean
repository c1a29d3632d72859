import Mathlib.Algebra.Group.Nat.Defs
import MightyColab.Lib.Fallible
import MightyColab.Lib.Text

/-!
# IP addresses

IPv4 and IPv6 addresses as numbers of their width, the networks they lie in, their text
as the standard library's `ipaddress` reads it, and which addresses the public internet
routes. An IPv6 address that maps an IPv4 address is what the mapped address is.
-/

namespace MightyColab
namespace Lib

/-!
## Networks
-/

/-- The addresses of a width that begin with the first `length` bits of `base`. -/
structure Network (width : Nat) where
  base : BitVec width
  length : Nat

/-- `address in network`. -/
def Network.contains {width : Nat} (n : Network width) (a : BitVec width) : Bool :=
  a >>> (width - n.length) == n.base >>> (width - n.length)

/-- `a.b.c.d/length`. -/
def network4 (a b c d length : Nat) : Network 32 where
  base := BitVec.ofNat 32 (((a * 256 + b) * 256 + c) * 256 + d)
  length := length

def network6 (hextets : List Nat) (length : Nat) : Network 128 where
  base := BitVec.ofNat 128
    (hextets.foldl (fun n hextet => n * 65536 + hextet) 0 * 65536 ^ (8 - hextets.length))
  length := length

/-- `_IPv4Constants._private_networks`. -/
def privateNetworks4 : List (Network 32) :=
  [network4 0 0 0 0 8, network4 10 0 0 0 8, network4 127 0 0 0 8, network4 169 254 0 0 16,
    network4 172 16 0 0 12, network4 192 0 0 0 24, network4 192 0 0 170 31,
    network4 192 0 2 0 24, network4 192 168 0 0 16, network4 198 18 0 0 15,
    network4 198 51 100 0 24, network4 203 0 113 0 24, network4 240 0 0 0 4,
    network4 255 255 255 255 32]

/-- `_IPv4Constants._private_networks_exceptions`. -/
def privateExceptions4 : List (Network 32) :=
  [network4 192 0 0 9 32, network4 192 0 0 10 32]

/-- `_IPv6Constants._private_networks`. -/
def privateNetworks6 : List (Network 128) :=
  [network6 [0, 0, 0, 0, 0, 0, 0, 1] 128, network6 [] 128,
    network6 [0, 0, 0, 0, 0, 0xffff] 96, network6 [0x64, 0xff9b, 1] 48,
    network6 [0x100] 64, network6 [0x2001] 23, network6 [0x2001, 0xdb8] 32,
    network6 [0x2002] 16, network6 [0xfc00] 7, network6 [0xfe80] 10]

/-- `_IPv6Constants._private_networks_exceptions`. -/
def privateExceptions6 : List (Network 128) :=
  [network6 [0x2001, 1, 0, 0, 0, 0, 0, 1] 128, network6 [0x2001, 1, 0, 0, 0, 0, 0, 2] 128,
    network6 [0x2001, 3] 32, network6 [0x2001, 4, 0x112] 48, network6 [0x2001, 0x20] 28,
    network6 [0x2001, 0x30] 28]

/-!
## Addresses
-/

inductive IpAddress where
  | v4 (bits : BitVec 32)
  | v6 (bits : BitVec 128)
  deriving DecidableEq, Repr

namespace IpAddress

/-- `ipv4_mapped`: the IPv4 address that an IPv6 address maps. -/
def mapped : IpAddress -> Option IpAddress
  | .v4 _ => none
  | .v6 bits =>
      if bits >>> 32 = 0xFFFF#128 then some (.v4 (bits.setWidth 32)) else none

/-- `is_private` of an IPv4 address. -/
def isPrivate4 (bits : BitVec 32) : Bool :=
  privateNetworks4.any (·.contains bits) && privateExceptions4.all fun n => !n.contains bits

def isPrivate : IpAddress -> Bool
  | .v4 bits => isPrivate4 bits
  | .v6 bits =>
      match (IpAddress.v6 bits).mapped with
      | some (.v4 inner) => isPrivate4 inner
      | _ =>
          privateNetworks6.any (·.contains bits) &&
            privateExceptions6.all fun n => !n.contains bits

def isGlobal : IpAddress -> Bool
  | .v4 bits => !(network4 100 64 0 0 10).contains bits && !isPrivate4 bits
  | .v6 bits => !isPrivate (.v6 bits)

def isMulticast : IpAddress -> Bool
  | .v4 bits => (network4 224 0 0 0 4).contains bits
  | .v6 bits => (network6 [0xff00] 8).contains bits

/-!
## Reading an address
-/

/-- `_parse_octet`. -/
def octet (text : List Char) : Option Nat :=
  if text = [] ∨ !text.all Char.isDigit ∨ text.length > 3 then none
  else if text ≠ ['0'] ∧ text.head? = some '0' then none
  else
    let n := text.foldl (fun n c => n * 10 + (c.toNat - '0'.toNat)) 0
    if n > 255 then none else some n

/-- `IPv4Address` of a text. -/
def read4 (text : List Char) : Option (BitVec 32) :=
  match (text.splitOn '.').map octet with
  | [some a, some b, some c, some d] =>
      some (BitVec.ofNat 32 (((a * 256 + b) * 256 + c) * 256 + d))
  | _ => none

def hexDigit (c : Char) : Option Nat :=
  if c.isDigit then some (c.toNat - '0'.toNat)
  else if 'a' ≤ c ∧ c ≤ 'f' then some (c.toNat - 'a'.toNat + 10)
  else if 'A' ≤ c ∧ c ≤ 'F' then some (c.toNat - 'A'.toNat + 10)
  else none

/-- `_parse_hextet`. -/
def hextet (text : List Char) : Option Nat :=
  if text = [] ∨ text.length > 4 then none
  else (text.mapM hexDigit).map fun digits => digits.foldl (fun n d => n * 16 + d) 0

def expand (parts : List (List Char)) : Option (List (List Char)) :=
  let last := parts.getLast?.getD []
  if parts.length < 3 then none
  else if '.' ∈ last then
    (read4 last).map fun suffix =>
      parts.dropLast ++ [Nat.toDigits 16 (suffix.toNat / 65536),
        Nat.toDigits 16 (suffix.toNat % 65536)]
  else some parts

def ofHextets (hextets : List Nat) : BitVec 128 :=
  BitVec.ofNat 128 (hextets.foldl (fun n hextet => n * 65536 + hextet) 0)

def side (parts : List (List Char)) (outermost : Option (List Char)) :
    Option (List (List Char)) :=
  if outermost ≠ some [] then some parts else if parts.length = 1 then some [] else none

def bitsOfParts (parts : List (List Char)) : Option (BitVec 128) :=
  if parts.length > 9 then none
  else
    let inner := (List.range parts.length).filter fun i =>
      decide (0 < i ∧ i + 1 < parts.length) && parts[i]? == some []
    match inner with
    | [] => if parts.length = 8 then (parts.mapM hextet).map ofHextets else none
    | [i] => do
        let hi ← side (parts.take i) parts.head?
        let lo ← side (parts.drop (i + 1)) parts.getLast?
        if hi.length + lo.length > 7 then none
        else
          let high ← hi.mapM hextet
          let low ← lo.mapM hextet
          some (ofHextets (high ++ List.replicate (8 - (hi.length + lo.length)) 0 ++ low))
    | _ => none

/-- `IPv6Address._ip_int_from_string`. -/
def readBits6 (text : List Char) : Option (BitVec 128) :=
  (expand (text.splitOn ':')).bind bitsOfParts

/-- `IPv6Address` of a text, whose scope id is not part of the address. -/
def read6 (text : List Char) : Option (BitVec 128) :=
  if '/' ∈ text then none
  else
    match text.splitOn '%' with
    | [address] => readBits6 address
    | [address, scope] => if scope = [] then none else readBits6 address
    | _ => none

/-- `ip_address` of a text. -/
def read (text : String) : Option IpAddress :=
  match read4 text.toList with
  | some bits => some (.v4 bits)
  | none => (read6 text.toList).map .v6

/-!
## Letter case
-/

def AddressChar (c : Char) : Prop := (hexDigit c).isSome = true ∨ c = ':' ∨ c = '.'

theorem hexDigit_toLower (c : Char) : hexDigit c.toLower = hexDigit c := by
  cases hupper : c.isUpper with
  | false => rw [Text.toLower_of_not_upper hupper]
  | true =>
      rcases Text.upper_cases hupper with ⟨n, rfl⟩
      revert n
      decide

theorem splitOn_toLower {sep : Char} (hsep : sep.isAlpha = false) (text : List Char) :
    (text.map Char.toLower).splitOn sep = (text.splitOn sep).map (·.map Char.toLower) := by
  induction text with
  | nil => rfl
  | cons c rest ih =>
      rw [List.map_cons, List.splitOn_cons_eq_if_modifyHead,
        List.splitOn_cons_eq_if_modifyHead, ih]
      by_cases hc : c = sep
      · simp [hc, Text.toLower_not_alpha hsep]
      · have hlower : ¬c.toLower = sep := fun h => hc ((Text.toLower_eq_iff hsep).mp h)
        simp only [beq_iff_eq, hlower, hc, if_false]
        cases rest.splitOn sep with
        | nil => rfl
        | cons first more => simp

theorem hextet_toLower (text : List Char) : hextet (text.map Char.toLower) = hextet text := by
  have hdigits : (text.map Char.toLower).mapM hexDigit = text.mapM hexDigit := by
    rw [List.mapM_map]
    congr 1
    funext c
    exact hexDigit_toLower c
  simp only [hextet, List.map_eq_nil_iff, List.length_map, hdigits]

theorem octet_toLower (text : List Char) : octet (text.map Char.toLower) = octet text := by
  have hall : (text.map Char.toLower).all Char.isDigit = text.all Char.isDigit := by
    rw [List.all_map]
    congr 1
    funext c
    exact Text.isDigit_toLower c
  by_cases hdigits : text.all Char.isDigit = true
  · have hsame : text.map Char.toLower = text := by
      refine (List.map_congr_left ?_).trans (List.map_id text)
      intro c hc
      have hdigit := List.all_eq_true.mp hdigits c hc
      apply Text.toLower_not_alpha
      cases halpha : c.isAlpha with
      | false => rfl
      | true => exact absurd hdigit (by rw [Text.isDigit_alpha halpha]; decide)
    rw [hsame]
  · simp [octet, hall, hdigits]

theorem read4_toLower (text : List Char) : read4 (text.map Char.toLower) = read4 text := by
  have hoctets : ((text.splitOn '.').map (·.map Char.toLower)).map octet =
      (text.splitOn '.').map octet := by
    rw [List.map_map]
    refine List.map_congr_left ?_
    intro part _
    exact octet_toLower part
  rw [read4, read4, splitOn_toLower (by decide), hoctets]

theorem mapM_hextet_toLower (parts : List (List Char)) :
    (parts.map (·.map Char.toLower)).mapM hextet = parts.mapM hextet := by
  rw [List.mapM_map]
  congr 1
  funext part
  exact hextet_toLower part

theorem side_toLower (parts : List (List Char)) (outermost : Option (List Char)) :
    side (parts.map (·.map Char.toLower)) (outermost.map (·.map Char.toLower)) =
      (side parts outermost).map (·.map (·.map Char.toLower)) := by
  have hempty : (outermost.map (·.map Char.toLower) ≠ some []) <-> outermost ≠ some [] := by
    cases outermost with
    | none => simp
    | some text => simp
  unfold side
  simp only [hempty, List.length_map]
  split
  · rfl
  · split <;> rfl

theorem bitsOfParts_toLower (parts : List (List Char)) :
    bitsOfParts (parts.map (·.map Char.toLower)) = bitsOfParts parts := by
  have hat : forall i : Nat, ((parts.map (·.map Char.toLower))[i]? == some []) =
      (parts[i]? == some []) := by
    intro i
    rw [List.getElem?_map]
    cases parts[i]? with
    | none => rfl
    | some part => cases part <;> rfl
  unfold bitsOfParts
  simp only [List.length_map, hat, mapM_hextet_toLower, List.head?_map, List.getLast?_map,
    ← List.map_take, ← List.map_drop, side_toLower]
  split
  · rfl
  · split
    · rfl
    · next i _ =>
        cases side (parts.take i) parts.head? with
        | none => rfl
        | some hi =>
            cases side (parts.drop (i + 1)) parts.getLast? with
            | none => rfl
            | some lo =>
                simp only [Option.map_some, Option.bind_eq_bind, Option.bind_some,
                  List.length_map, mapM_hextet_toLower]
    · rfl

theorem dot_mem_toLower (text : List Char) : '.' ∈ text.map Char.toLower <-> '.' ∈ text := by
  constructor
  · intro h
    rcases List.mem_map.mp h with ⟨c, hc, hlower⟩
    rwa [(Text.toLower_eq_iff (by decide)).mp hlower] at hc
  · intro h
    exact List.mem_map.mpr ⟨'.', h, by decide⟩

theorem bits_expand_toLower (parts : List (List Char)) :
    (expand (parts.map (·.map Char.toLower))).bind bitsOfParts =
      (expand parts).bind bitsOfParts := by
  have hlast : (parts.map (·.map Char.toLower)).getLast?.getD [] =
      (parts.getLast?.getD []).map Char.toLower := by
    rw [List.getLast?_map]
    cases parts.getLast? <;> rfl
  unfold expand
  simp only [hlast, dot_mem_toLower, List.length_map, read4_toLower, ← List.map_dropLast]
  split
  · rfl
  · split
    · cases read4 (parts.getLast?.getD []) with
      | none => rfl
      | some suffix =>
          simp only [Option.map_some, Option.bind_some]
          rw [← bitsOfParts_toLower, ← bitsOfParts_toLower (parts.dropLast ++ _)]
          simp only [List.map_append, List.map_map, Function.comp_def,
            Text.toLower_toLower]
    · exact bitsOfParts_toLower parts

theorem readBits6_toLower (text : List Char) :
    readBits6 (text.map Char.toLower) = readBits6 text := by
  rw [readBits6, readBits6, splitOn_toLower (by decide), bits_expand_toLower]

/-!
## The characters of an address
-/

theorem hextet_chars {text : List Char} (h : (hextet text).isSome = true) :
    forall c, c ∈ text -> AddressChar c := by
  unfold hextet at h
  split at h
  · cases h
  · cases hdigits : text.mapM hexDigit with
    | none => rw [hdigits] at h; cases h
    | some digits =>
        intro c hc
        exact Or.inl (Fallible.mapM_all hdigits c hc)

theorem mem_splitOn {sep c : Char} {text : List Char} (h : c ∈ text) :
    c = sep ∨ exists part, part ∈ text.splitOn sep ∧ c ∈ part := by
  induction text with
  | nil => cases h
  | cons first rest ih =>
      rw [List.splitOn_cons_eq_if_modifyHead]
      by_cases hfirst : first = sep
      · simp only [hfirst, beq_self_eq_true, if_true]
        rcases List.mem_cons.mp h with heq | hmem
        · exact Or.inl (heq.trans hfirst)
        · rcases ih hmem with hsep | ⟨part, hpart, hc⟩
          · exact Or.inl hsep
          · exact Or.inr ⟨part, List.mem_cons_of_mem _ hpart, hc⟩
      · simp only [beq_iff_eq, hfirst, if_false]
        cases hrest : rest.splitOn sep with
        | nil => exact absurd hrest (List.splitOn_ne_nil _ _)
        | cons part more =>
            rw [hrest] at ih
            rw [List.modifyHead_cons]
            rcases List.mem_cons.mp h with heq | hmem
            · exact Or.inr ⟨_, List.mem_cons_self, by rw [heq]; exact List.mem_cons_self⟩
            · rcases ih hmem with hsep | ⟨other, hother, hc⟩
              · exact Or.inl hsep
              · rcases List.mem_cons.mp hother with rfl | hin
                · exact Or.inr ⟨_, List.mem_cons_self, List.mem_cons_of_mem _ hc⟩
                · exact Or.inr ⟨other, List.mem_cons_of_mem _ hin, hc⟩

theorem octet_chars {text : List Char} (h : (octet text).isSome = true) :
    forall c, c ∈ text -> c.isDigit = true := by
  unfold octet at h
  split at h
  · cases h
  · next hshape =>
      have hall : text.all Char.isDigit = true := by
        cases hdigits : text.all Char.isDigit with
        | true => rfl
        | false => simp [hdigits] at hshape
      exact List.all_eq_true.mp hall

theorem isSome_hexDigit {c : Char} (h : c.isDigit = true) : (hexDigit c).isSome = true := by
  simp [hexDigit, h]

theorem read4_chars {text : List Char} {bits : BitVec 32} (h : read4 text = some bits) :
    forall c, c ∈ text -> c.isDigit = true ∨ c = '.' := by
  intro c hc
  rcases @mem_splitOn '.' c text hc with hdot | ⟨part, hpart, hcpart⟩
  · exact Or.inr hdot
  · have hoctet : (octet part).isSome = true := by
      unfold read4 at h
      split at h
      · next a b d e hoctets =>
          have hmem : octet part ∈ (text.splitOn '.').map octet := List.mem_map_of_mem hpart
          rw [hoctets] at hmem
          simp only [List.mem_cons, List.not_mem_nil, or_false] at hmem
          rcases hmem with heq | heq | heq | heq <;> rw [heq] <;> rfl
      · cases h
    exact Or.inl (octet_chars hoctet c hcpart)

theorem side_parts {parts kept : List (List Char)} {outermost : Option (List Char)}
    {values : List Nat} (hside : side parts outermost = some kept)
    (hvalues : kept.mapM hextet = some values)
    (hin : forall part, outermost = some part -> part ∈ parts) :
    forall part, part ∈ parts -> part = [] ∨ (hextet part).isSome = true := by
  intro part hpart
  unfold side at hside
  split at hside
  · cases hside
    exact Or.inr (Fallible.mapM_all hvalues part hpart)
  · next houter =>
      split at hside
      · next hlength =>
          rcases List.length_eq_one_iff.mp hlength with ⟨only, honly⟩
          have hempty : outermost = some [] := by simpa using houter
          have hmem := hin [] hempty
          rw [honly] at hmem hpart
          rw [List.mem_singleton.mp hpart, ← List.mem_singleton.mp hmem]
          exact Or.inl rfl
      · cases hside

theorem bitsOfParts_parts {parts : List (List Char)} {bits : BitVec 128}
    (h : bitsOfParts parts = some bits) :
    forall part, part ∈ parts -> part = [] ∨ (hextet part).isSome = true := by
  unfold bitsOfParts at h
  dsimp only at h
  split at h
  · cases h
  · split at h
    · split at h
      · rcases Option.map_eq_some_iff.mp h with ⟨values, hvalues, _⟩
        intro part hpart
        exact Or.inr (Fallible.mapM_all hvalues part hpart)
      · cases h
    · next inner i hinner =>
        have hi : i ∈ (List.range parts.length).filter fun i =>
            decide (0 < i ∧ i + 1 < parts.length) && parts[i]? == some [] := by
          rw [hinner]
          exact List.mem_singleton_self i
        simp only [List.mem_filter, List.mem_range, Bool.and_eq_true, decide_eq_true_eq,
          beq_iff_eq] at hi
        rcases hi with ⟨_, ⟨hpos, hlast⟩, hempty⟩
        rcases Option.bind_eq_some_iff.mp h with ⟨hi, hhi, h⟩
        rcases Option.bind_eq_some_iff.mp h with ⟨lo, hlo, h⟩
        split at h
        · cases h
        · rcases Option.bind_eq_some_iff.mp h with ⟨high, hhigh, h⟩
          rcases Option.bind_eq_some_iff.mp h with ⟨low, hlow, _⟩
          have hleft := side_parts hhi hhigh (by
            intro part hhead
            cases parts with
            | nil => cases hhead
            | cons first rest =>
                rw [List.head?_cons, Option.some.injEq] at hhead
                rw [hhead, show i = (i - 1) + 1 by omega, List.take_succ_cons]
                exact List.mem_cons_self)
          have hright := side_parts hlo hlow (by
            intro part hend
            have hdrop : (parts.drop (i + 1)).getLast? = some part := by
              rw [List.getLast?_drop, if_neg (by omega), hend]
            exact List.mem_of_getLast? hdrop)
          intro part hpart
          rcases List.mem_iff_getElem?.mp hpart with ⟨k, hk⟩
          rcases Nat.lt_trichotomy k i with hlt | heq | hgt
          · apply hleft
            rw [List.mem_iff_getElem?]
            exact ⟨k, by rw [List.getElem?_take_of_lt hlt, hk]⟩
          · rw [heq, hempty, Option.some.injEq] at hk
            exact Or.inl hk.symm
          · apply hright
            rw [List.mem_iff_getElem?]
            refine ⟨k - (i + 1), ?_⟩
            rw [List.getElem?_drop, show i + 1 + (k - (i + 1)) = k by omega, hk]
    · cases h

theorem expand_chars {parts expanded : List (List Char)} (h : expand parts = some expanded)
    (hexpanded : forall part, part ∈ expanded -> part = [] ∨ (hextet part).isSome = true) :
    forall part, part ∈ parts -> forall c, c ∈ part -> AddressChar c := by
  have hhextet : forall part, part = [] ∨ (hextet part).isSome = true ->
      forall c, c ∈ part -> AddressChar c := by
    intro part hpart c hc
    rcases hpart with hempty | hsome
    · rw [hempty] at hc
      cases hc
    · exact hextet_chars hsome c hc
  unfold expand at h
  dsimp only at h
  split at h
  · cases h
  · split at h
    · rcases Option.map_eq_some_iff.mp h with ⟨bits, hread, heq⟩
      intro part hpart c hc
      have hne : parts ≠ [] := List.ne_nil_of_mem hpart
      rw [← List.dropLast_append_getLast hne] at hpart
      rcases List.mem_append.mp hpart with hfront | hend
      · have hmem : part ∈ expanded := by
          rw [← heq]
          exact List.mem_append_left _ hfront
        exact hhextet part (hexpanded part hmem) c hc
      · rw [List.mem_singleton.mp hend] at hc
        rw [List.getLast?_eq_some_getLast hne, Option.getD_some] at hread
        rcases read4_chars hread c hc with hdigit | hdot
        · exact Or.inl (isSome_hexDigit hdigit)
        · exact Or.inr (Or.inr hdot)
    · cases h
      intro part hpart
      exact hhextet part (hexpanded part hpart)

theorem readBits6_chars {text : List Char} {bits : BitVec 128} (h : readBits6 text = some bits) :
    forall c, c ∈ text -> AddressChar c := by
  unfold readBits6 at h
  rcases Option.bind_eq_some_iff.mp h with ⟨expanded, hexpand, hbits⟩
  intro c hc
  rcases @mem_splitOn ':' c text hc with hcolon | ⟨part, hpart, hcpart⟩
  · exact Or.inr (Or.inl hcolon)
  · exact expand_chars hexpand (bitsOfParts_parts hbits) part hpart c hcpart

theorem readBits6_colon {text : List Char} {bits : BitVec 128} (h : readBits6 text = some bits) :
    ':' ∈ text := by
  by_contra hcolon
  rw [readBits6, List.splitOn_eq_singleton hcolon] at h
  exact absurd h (by simp [expand])

end IpAddress
end Lib
end MightyColab
