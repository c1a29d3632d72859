import Mathlib.Data.List.Infix
import MightyColab.Lib.Calls
import MightyColab.Lib.Text
import MightyColab.Lib.Utf8

/-!
# Process identities

`runtime_payload/ident.py`: what `/proc` tells of a process, and the sweeps that look for the
processes of a job by their environment and signal those that are still the ones that were found.
-/

namespace MightyColab
namespace Job
namespace Ident

open Lib

/-!
## `/proc/<pid>/stat`
-/

/-- `text.split()` -/
def words (text : List Char) : List String :=
  ((text.splitOnP Text.isSpace).filter (· ≠ [])).map String.ofList

/-- `_parse_stat`; nothing where it raises `ValueError` or `IndexError`. -/
def parseStat (data : String) : Option (String × String) := do
  let rest <- Text.afterLast? ')' data.toList
  let fields := words (rest.drop 1)
  let state <- fields[0]?
  let start <- fields[19]?
  return (state, start)

def isGone (state : String) : Bool :=
  state.toList.head? = some 'Z' || state.toList.head? = some 'X' || state.toList.head? = some 'x'

structure Word where
  text : String
  nonempty : text ≠ ""
  plain : text.toList.all (fun c => !Text.isSpace c && c != ')') = true

structure Stat where
  pid : Nat
  comm : String
  state : Word
  between : List Word
  length : between.length = 18
  start : Word
  more : List Word

def fieldsText : List Word -> List Char
  | [] => []
  | [w] => w.text.toList ++ ['\n']
  | w :: rest => w.text.toList ++ ' ' :: fieldsText rest

def Stat.fields (s : Stat) : List Word := s.state :: (s.between ++ s.start :: s.more)

def Stat.text (s : Stat) : String :=
  String.ofList ((toString s.pid).toList ++ " (".toList ++ s.comm.toList ++ ") ".toList ++
    fieldsText s.fields)

theorem Word.mem (w : Word) {c : Char} (h : c ∈ w.text.toList) :
    Text.isSpace c = false ∧ c ≠ ')' := by
  have hc := List.all_eq_true.mp w.plain c h
  simpa using hc

theorem words_cons (w : Word) {sep : Char} (hsep : Text.isSpace sep = true) (rest : List Char) :
    words (w.text.toList ++ sep :: rest) = w.text :: words rest := by
  have hplain : forall c, c ∈ w.text.toList -> Text.isSpace c = false :=
    fun c hc => (w.mem hc).left
  have hne : w.text.toList ≠ [] := fun h => w.nonempty (by rw [← String.toList_inj, h]; rfl)
  rw [words, List.splitOnP_append_cons _ _ hsep, List.splitOnP_eq_singleton hplain,
    List.singleton_append, List.filter_cons_of_pos (by simp [hne]), List.map_cons,
    String.ofList_toList]
  rfl

theorem words_fieldsText (fields : List Word) :
    words (fieldsText fields) = fields.map Word.text := by
  induction fields with
  | nil => rfl
  | cons w rest ih =>
      cases rest with
      | nil =>
          unfold fieldsText
          rw [words_cons w (by decide)]
          rfl
      | cons next rest =>
          unfold fieldsText
          rw [words_cons w (by decide), ih]
          rfl

theorem not_mem_fieldsText (fields : List Word) : ')' ∉ fieldsText fields := by
  induction fields with
  | nil => exact List.not_mem_nil
  | cons w rest ih =>
      have hw : ')' ∉ w.text.toList := fun hmem => (w.mem hmem).right rfl
      cases rest with
      | nil =>
          unfold fieldsText
          simp [hw]
      | cons next rest =>
          unfold fieldsText
          simp [hw, ih]

/-- The name of the command, with whatever blanks and parentheses, is never taken for a field. -/
theorem parseStat_text (s : Stat) : parseStat s.text = some (s.state.text, s.start.text) := by
  have htext : s.text.toList =
      ((toString s.pid).toList ++ " (".toList ++ s.comm.toList) ++ ')' :: ' ' ::
        fieldsText s.fields := by
    rw [Stat.text, String.toList_ofList]
    simp
  have hnot : ')' ∉ ' ' :: fieldsText s.fields := by
    simp [not_mem_fieldsText]
  have hlength : 18 = s.between.length := s.length.symm
  rw [parseStat, htext, Text.afterLast?_append hnot]
  change (do
    let state <- (words (fieldsText s.fields))[0]?
    let start <- (words (fieldsText s.fields))[19]?
    return (state, start)) = _
  rw [words_fieldsText, Stat.fields]
  simp [hlength]

/-!
## `/proc/<pid>/environ`
-/

structure Variable where
  bytes : List UInt8
  plain : 0 ∉ bytes

def environText (vars : List Variable) : List UInt8 :=
  vars.flatMap fun v => v.bytes ++ [0]

/-- `f"{JOB_ENV_VAR}={job_id}"` -/
def tag (jobId : String) : List UInt8 := Utf8.encode ("MIGHTY_JOB_ID=" ++ jobId).toList

/-- `needle in f.read()` -/
def carries (jobId : String) (environ : List UInt8) : Bool :=
  environ.tails.any (tag jobId ++ [0]).isPrefixOf

theorem zero_mem_encode {text : List Char} (h : 0 ∈ Utf8.encode text) : Char.ofNat 0 ∈ text := by
  rcases List.mem_flatMap.mp h with ⟨c, hc, hzero⟩
  have hnonzero : forall {n : Nat}, (0 : UInt8) = UInt8.ofNat n -> n < 256 -> n = 0 := by
    intro n heq hn
    have hnat := congrArg UInt8.toNat heq
    rw [Utf8.toNat_ofNat hn] at hnat
    exact hnat.symm
  have hback : Char.ofNat c.val.toNat = c := Char.ofNat_toNat c
  unfold String.utf8EncodeChar at hzero
  generalize c.val.toNat = v at hback hzero
  have hv : v = 0 := by
    simp only at hzero
    split at hzero
    · next hone => exact hnonzero (List.mem_singleton.mp hzero) (by omega)
    split at hzero
    · simp only [List.mem_cons, List.not_mem_nil, or_false] at hzero
      rcases hzero with heq | heq <;> have := hnonzero heq (by omega) <;> omega
    split at hzero
    · simp only [List.mem_cons, List.not_mem_nil, or_false] at hzero
      rcases hzero with heq | heq | heq <;> have := hnonzero heq (by omega) <;> omega
    · simp only [List.mem_cons, List.not_mem_nil, or_false] at hzero
      rcases hzero with heq | heq | heq | heq <;> have := hnonzero heq (by omega) <;> omega
  rw [← hback, hv] at hc
  exact hc

/-- A text with its terminator is found among terminated texts exactly at the end of one. -/
theorem infix_terminated {needle : List UInt8} (hneedle : 0 ∉ needle)
    (vars : List Variable) :
    needle ++ [0] <:+: environText vars <->
      exists v, v ∈ vars ∧ needle <:+ v.bytes := by
  induction vars with
  | nil =>
      constructor
      · intro h
        have hnil := List.infix_nil.mp h
        exact absurd hnil (by simp)
      · intro h
        rcases h with ⟨v, hv, _⟩
        cases hv
  | cons v rest ih =>
      have htext : environText (v :: rest) = v.bytes ++ 0 :: environText rest := by
        simp [environText]
      have hsplit : needle ++ [0] <:+: v.bytes ++ 0 :: environText rest <->
          needle <:+ v.bytes ∨ needle ++ [0] <:+: environText rest := by
        constructor
        · intro h
          rcases h with ⟨a, b, heq⟩
          have hends : (a ++ needle) ++ 0 :: b = v.bytes ++ 0 :: environText rest := by
            rw [← heq]
            simp
          rcases List.append_eq_append_iff.mp hends with ⟨mid, hv, hrest⟩ | ⟨mid, ha, hrest⟩
          · cases mid with
            | nil =>
                rw [List.append_nil] at hv
                exact Or.inl ⟨a, hv.symm⟩
            | cons x mid =>
                have hx : 0 = x := (List.cons.inj hrest).left
                exact absurd (by rw [hv, ← hx]; simp) v.plain
          · cases mid with
            | nil =>
                rw [List.append_nil] at ha
                exact Or.inl ⟨a, ha⟩
            | cons x mid =>
                rcases List.cons.inj hrest with ⟨hx, hrest⟩
                rw [← hx] at ha
                rcases List.append_eq_append_iff.mp ha with ⟨k, _, hk⟩ | ⟨k, _, hk⟩
                · exact absurd (by rw [hk]; simp) hneedle
                · cases k with
                  | nil => exact absurd (by rw [← List.nil_append needle, ← hk]; simp) hneedle
                  | cons y k =>
                      refine Or.inr ⟨k, b, ?_⟩
                      rw [hrest, (List.cons.inj hk).right]
                      simp
        · intro h
          rcases h with ⟨a, ha⟩ | ⟨a, b, heq⟩
          · exact ⟨a, environText rest, by rw [← ha]; simp⟩
          · exact ⟨v.bytes ++ 0 :: a, b, by rw [← heq]; simp⟩
      rw [htext, hsplit, ih]
      simp

theorem carries_iff {jobId : String} (hjob : Char.ofNat 0 ∉ jobId.toList)
    (vars : List Variable) :
    carries jobId (environText vars) = true <-> exists v, v ∈ vars ∧ tag jobId <:+ v.bytes := by
  have htag : 0 ∉ tag jobId := by
    intro hmem
    have hzero := zero_mem_encode hmem
    rw [String.toList_append] at hzero
    rcases List.mem_append.mp hzero with hname | hmem
    · revert hname
      decide
    · exact hjob hmem
  have hfound : carries jobId (environText vars) = true <->
      tag jobId ++ [0] <:+: environText vars := by
    rw [carries, List.any_eq_true, List.infix_iff_prefix_suffix]
    refine exists_congr fun rest => ?_
    rw [List.mem_tails, List.isPrefixOf_iff_prefix]
    exact And.comm
  rw [hfound, infix_terminated htag]

/-!
## The sweeps
-/

inductive Call where
  /-- The processes that `os.listdir("/proc")` names. -/
  | listdir
  | environ (pid : Nat)
  | stat (pid : Nat)
  | bootId
  | kill (pid : Nat) (sig : Nat)
  deriving DecidableEq, Repr

/-- Nothing, or false, stands for an `OSError`. -/
abbrev Call.Answer : Call -> Type
  | .listdir => List Nat
  | .environ _ => Option (List UInt8)
  | .stat _ => Option String
  | .bootId => String
  | .kill _ _ => Bool

abbrev Program := Calls Call Call.Answer

structure Identity where
  pid : Nat
  start : String
  boot : String
  deriving DecidableEq, Repr

/-- What `starttime` makes of the text. -/
def liveStart (data : Option String) : String :=
  match data.bind parseStat with
  | some (state, start) => if isGone state then "" else start
  | none => ""

def starttime (pid : Nat) : Program String :=
  if pid = 0 then return ""
  else do
    let data <- Calls.ask (.stat pid)
    return liveStart data

def alive (id : Identity) : Program Bool :=
  if id.pid = 0 then return false
  else do
    let boot <- Calls.ask .bootId
    if boot ≠ id.boot then return false
    else do
      let actual <- starttime id.pid
      return actual ≠ "" && actual = id.start

def taggedAmong (jobId : String) (skip : List Nat) : List Nat -> Program (List Nat)
  | [] => return []
  | pid :: rest =>
      if pid ∈ skip then taggedAmong jobId skip rest
      else do
        let environ <- Calls.ask (.environ pid)
        let others <- taggedAmong jobId skip rest
        return if Option.any (carries jobId) environ then pid :: others else others

/-- `tagged_processes`; `skip` has the excluded processes and the one that sweeps. -/
def taggedProcesses (jobId : String) (skip : List Nat) : Program (List Nat) :=
  if jobId = "" then return []
  else do
    let pids <- Calls.ask .listdir
    taggedAmong jobId skip pids

def identitiesOf (boot : String) : List Nat -> Program (List Identity)
  | [] => return []
  | pid :: rest => do
      let started <- starttime pid
      let others <- identitiesOf boot rest
      return if started = "" then others else ⟨pid, started, boot⟩ :: others

def taggedIdentities (jobId : String) (skip : List Nat) : Program (List Identity) := do
  let boot <- Calls.ask .bootId
  let pids <- taggedProcesses jobId skip
  identitiesOf boot pids

def signalIdentities (sig : Nat) : List Identity -> Program (List Nat)
  | [] => return []
  | id :: rest => do
      let same <- alive id
      if same then do
        let sent <- Calls.ask (.kill id.pid sig)
        let others <- signalIdentities sig rest
        return if sent then id.pid :: others else others
      else signalIdentities sig rest

def signalTagged (jobId : String) (sig : Nat) (skip : List Nat) : Program (List Nat) := do
  let identities <- taggedIdentities jobId skip
  signalIdentities sig identities

def sigterm : Nat := 15

def sigkill : Nat := 9

/-- The sweep of the runner's last probes: those that it finds are asked to end, and after a
while killed. -/
def lastSweep (jobId : String) (skip : List Nat) : Program (List Nat) := do
  let identities <- taggedIdentities jobId skip
  if identities = [] then taggedProcesses jobId skip
  else do
    let _ <- signalIdentities sigterm identities
    let _ <- signalIdentities sigkill identities
    taggedProcesses jobId skip

end Ident
end Job
end MightyColab
