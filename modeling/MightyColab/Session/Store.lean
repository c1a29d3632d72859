import MightyColab.Lib.Dict
import MightyColab.Lib.Fallible
import MightyColab.Lib.Json
import MightyColab.Session.Record

/-!
# The session file

`StateStore` holds all records in one file, which each call loads, validates and rewrites as
a whole and in place. Which of the other records a call leaves alone depends on whether all of
them are valid and on where the call is stopped.
-/

namespace MightyColab
namespace Session
namespace Store

open Lib

/-- `SessionState(**v)` and `model_dump()`. -/
structure RecordModel where
  validate : Json -> Option SessionState
  dump : SessionState -> Json

/-- What is dumped is read back. -/
def RecordModel.RoundTrips (m : RecordModel) : Prop :=
  forall s, m.validate (m.dump s) = some s

/-- The text in the file. A part of the text of an object is no document. -/
inductive Content where
  /-- no file, or nothing in it but spaces -/
  | blank
  /-- no document, or one that is no object -/
  | broken
  | records (fields : Json.Fields)

/-- The steps of a call at which it may be stopped. -/
inductive Stop where
  | reading
  | truncated
  | writing
  | completed
  deriving DecidableEq

def loadRaw (m : RecordModel) : Content -> List (String × SessionState)
  | .blank | .broken => []
  | .records fields => (fields.mapM fun item => (m.validate item.2).map (item.1, ·)).getD []

/-- `_write_data`: `f.truncate()`, then `f.write(data)`, which may reach the file in parts. -/
def writeData (before : Content) (fields : Json.Fields) : Stop -> Content
  | .reading => before
  | .truncated => .blank
  | .writing => .broken
  | .completed => .records fields

def saveRaw (m : RecordModel) (before : Content) (sessions : List (String × SessionState)) :
    Stop -> Content :=
  writeData before (sessions.map fun item => (item.1, m.dump item.2))

def add (m : RecordModel) (c : Content) (s : SessionState) : Stop -> Content :=
  saveRaw m c (Dict.set (loadRaw m c) s.name s)

def remove (m : RecordModel) (c : Content) (name : String) (stop : Stop) : Content :=
  if name ∈ Dict.keys (loadRaw m c) then
    saveRaw m c ((loadRaw m c).filter fun item => item.1 ≠ name) stop
  else c

def get (m : RecordModel) (c : Content) (name : String) : Option SessionState :=
  (loadRaw m c).lookup name

inductive Call where
  | add (s : SessionState)
  | remove (name : String)

def Call.name : Call -> String
  | add s => s.name
  | remove name => name

/-- The file after a call, or where the call was stopped. -/
def Call.run (m : RecordModel) (c : Content) : Call -> Stop -> Content
  | add s => Store.add m c s
  | remove name => Store.remove m c name

/-!
## One record of the file
-/

def valid (m : RecordModel) (name : String) : Content -> Option SessionState
  | .blank | .broken => none
  | .records fields => (fields.lookup name).bind m.validate

def AllValid (m : RecordModel) : Content -> Prop
  | .blank | .broken => True
  | .records fields => forall item, item ∈ fields -> (m.validate item.2).isSome = true

def Alone (m : RecordModel) (c : Content) (name : String) : Prop :=
  forall other, other ≠ name -> valid m other c = none

def Call.writes (m : RecordModel) (c : Content) : Call -> Stop -> Prop
  | _, .reading => False
  | .add _, _ => True
  | .remove name, _ => name ∈ Dict.keys (loadRaw m c)

/-- Each valid record of another name is there after the call as it was. -/
def Kept (m : RecordModel) (name : String) (c c' : Content) : Prop :=
  forall other s, other ≠ name -> valid m other c = some s -> valid m other c' = some s

variable {m : RecordModel} {c : Content} {name : String} {s : SessionState}

theorem kept_refl (m : RecordModel) (name : String) (c : Content) : Kept m name c c :=
  fun _ _ _ h => h

/-- Where nothing valid is left under other names, nothing of them is kept unless there was
nothing. -/
theorem kept_iff_alone {c' : Content} (h : forall other, other ≠ name -> valid m other c' = none) :
    Kept m name c c' <-> Alone m c name := by
  constructor
  · intro hkept other hne
    cases hvalid : valid m other c with
    | none => rfl
    | some s =>
        have hlost := h other hne
        rw [hkept other s hne hvalid] at hlost
        cases hlost
  · intro halone other s hne hvalid
    rw [halone other hne] at hvalid
    cases hvalid

/-!
## What is loaded, and what is written
-/

theorem lookup_loadRaw (h : AllValid m c) (other : String) :
    (loadRaw m c).lookup other = valid m other c := by
  cases c with
  | blank => rfl
  | broken => rfl
  | records fields =>
      have hsome : (fields.mapM fun item => (m.validate item.2).map (item.1, ·)).isSome = true := by
        refine (Fallible.mapM_isSome _ _).mpr fun item hitem => ?_
        rw [Option.isSome_map]
        exact h item hitem
      rcases Option.isSome_iff_exists.mp hsome with ⟨sessions, hsessions⟩
      rw [loadRaw, hsessions, Option.getD_some]
      exact Fallible.lookup_mapM hsessions

theorem loadRaw_invalid (h : ¬AllValid m c) : loadRaw m c = [] := by
  cases c with
  | blank => rfl
  | broken => rfl
  | records fields =>
      cases hsessions : fields.mapM fun item => (m.validate item.2).map (item.1, ·) with
      | none => rw [loadRaw, hsessions, Option.getD_none]
      | some sessions =>
          refine absurd (fun item hitem => ?_) h
          have hvalid := Fallible.mapM_all hsessions item hitem
          rw [Option.isSome_map] at hvalid
          exact hvalid

theorem lookup_dumped (sessions : List (String × SessionState)) (other : String) :
    (sessions.map fun item => (item.1, m.dump item.2)).lookup other =
      (sessions.lookup other).map m.dump := by
  induction sessions with
  | nil => rfl
  | cons item rest ih =>
      rw [List.map_cons, List.lookup_cons, List.lookup_cons, ih]
      cases other == item.1 <;> rfl

theorem valid_saved (hround : m.RoundTrips) (c : Content)
    (sessions : List (String × SessionState)) (other : String) :
    valid m other (saveRaw m c sessions .completed) = sessions.lookup other := by
  change ((sessions.map fun item => (item.1, m.dump item.2)).lookup other).bind m.validate = _
  rw [lookup_dumped]
  cases sessions.lookup other with
  | none => rfl
  | some s => exact hround s

theorem lookup_erased (sessions : List (String × SessionState)) {other : String}
    (hne : other ≠ name) :
    (sessions.filter fun item => item.1 ≠ name).lookup other = sessions.lookup other := by
  induction sessions with
  | nil => rfl
  | cons item rest ih =>
      by_cases hname : item.1 = name
      · have hother : (other == item.1) = false := by
          rw [hname]
          exact beq_eq_false_iff_ne.mpr hne
        rw [List.filter_cons_of_neg (by simp [hname]), ih, List.lookup_cons, hother]
      · rw [List.filter_cons_of_pos (by simp [hname]), List.lookup_cons, List.lookup_cons, ih]

def Call.sessions (m : RecordModel) (c : Content) : Call -> List (String × SessionState)
  | add s => Dict.set (loadRaw m c) s.name s
  | remove name => (loadRaw m c).filter fun item => item.1 ≠ name

theorem Call.lookup_sessions (call : Call) {other : String} (hne : other ≠ call.name) :
    (call.sessions m c).lookup other = (loadRaw m c).lookup other := by
  cases call with
  | add s => exact Dict.lookup_set.trans (if_neg hne)
  | remove name => exact lookup_erased _ hne

theorem Call.run_writes {call : Call} {stop : Stop} (h : call.writes m c stop) :
    call.run m c stop = saveRaw m c (call.sessions m c) stop := by
  cases call with
  | add s => rfl
  | remove name =>
      have hmem : name ∈ Dict.keys (loadRaw m c) := by
        cases stop with
        | reading => exact False.elim h
        | truncated => exact h
        | writing => exact h
        | completed => exact h
      exact if_pos hmem

theorem Call.run_still {call : Call} {stop : Stop} (h : ¬call.writes m c stop) :
    call.run m c stop = c := by
  cases stop with
  | reading =>
      cases call with
      | add s => rfl
      | remove name =>
          change Store.remove m c name .reading = c
          unfold Store.remove
          split <;> rfl
  | truncated =>
      cases call with
      | add s => exact absurd trivial h
      | remove name => exact if_neg h
  | writing =>
      cases call with
      | add s => exact absurd trivial h
      | remove name => exact if_neg h
  | completed =>
      cases call with
      | add s => exact absurd trivial h
      | remove name => exact if_neg h

/-!
## Which calls leave the other records alone
-/

/-- The call writes nothing, or is completed over a file whose records are all valid, or there
is no other valid record. -/
def Safe (m : RecordModel) (c : Content) (call : Call) (stop : Stop) : Prop :=
  ¬call.writes m c stop ∨ stop = .completed ∧ AllValid m c ∨ Alone m c call.name

theorem completed_kept_iff (hround : m.RoundTrips) {call : Call}
    (hwrites : call.writes m c .completed) :
    Kept m call.name c (call.run m c .completed) <-> AllValid m c ∨ Alone m c call.name := by
  rw [Call.run_writes hwrites]
  have hafter : forall other, other ≠ call.name ->
      valid m other (saveRaw m c (call.sessions m c) .completed) = (loadRaw m c).lookup other := by
    intro other hne
    rw [valid_saved hround, call.lookup_sessions hne]
  by_cases hall : AllValid m c
  · refine iff_of_true (fun other s hne hvalid => ?_) (Or.inl hall)
    rw [hafter other hne, lookup_loadRaw hall]
    exact hvalid
  · rw [or_iff_right hall]
    refine kept_iff_alone fun other hne => ?_
    rw [hafter other hne, loadRaw_invalid hall]
    rfl

theorem others_kept_iff (hround : m.RoundTrips) (c : Content) (call : Call) (stop : Stop) :
    Kept m call.name c (call.run m c stop) <-> Safe m c call stop := by
  by_cases hwrites : call.writes m c stop
  · rw [Safe, or_iff_right (not_not_intro hwrites)]
    cases stop with
    | reading => exact False.elim (by cases call <;> exact hwrites)
    | truncated =>
        rw [or_iff_right (fun h => by cases h.left), Call.run_writes hwrites]
        exact kept_iff_alone fun _ _ => rfl
    | writing =>
        rw [or_iff_right (fun h => by cases h.left), Call.run_writes hwrites]
        exact kept_iff_alone fun _ _ => rfl
    | completed =>
        rw [and_iff_right rfl]
        exact completed_kept_iff hround hwrites
  · rw [Call.run_still hwrites]
    exact iff_of_true (kept_refl _ _ _) (Or.inl hwrites)

/-!
## What is read after a call
-/

theorem loadRaw_saved (hround : m.RoundTrips) (c : Content)
    (sessions : List (String × SessionState)) :
    loadRaw m (saveRaw m c sessions .completed) = sessions := by
  have hmap : (sessions.map fun item => (item.1, m.dump item.2)).mapM
      (fun item => (m.validate item.2).map (item.1, ·)) = some sessions := by
    rw [Fallible.mapM_some_iff, List.forall₂_map_left_iff, List.forall₂_same]
    intro item _
    change (m.validate (m.dump item.2)).map (item.1, ·) = some item
    rw [hround]
    rfl
  exact congrArg (Option.getD · []) hmap

theorem get_add (hround : m.RoundTrips) (c : Content) (s : SessionState) :
    get m (add m c s .completed) s.name = some s := by
  rw [get, add, loadRaw_saved hround, Dict.lookup_set, if_pos rfl]

theorem get_remove (hround : m.RoundTrips) (c : Content) (name : String) :
    get m (remove m c name .completed) name = none := by
  unfold remove
  split
  · rw [get, loadRaw_saved hround, List.lookup_eq_none_iff]
    intro item hitem
    have hne := of_decide_eq_true (List.mem_filter.mp hitem).right
    exact bne_iff_ne.mpr (Ne.symm hne)
  · next hmem =>
      rw [get, List.lookup_eq_none_iff]
      intro item hitem
      refine bne_iff_ne.mpr fun heq => hmem ?_
      rw [heq]
      exact List.mem_map_of_mem hitem

/-- A completed call changes nothing that a reader finds under other names, who finds none of
them where one is not valid. -/
theorem get_other (hround : m.RoundTrips) (c : Content) (call : Call) {other : String}
    (hne : other ≠ call.name) : get m (call.run m c .completed) other = get m c other := by
  by_cases hwrites : call.writes m c .completed
  · rw [Call.run_writes hwrites, get, loadRaw_saved hround, call.lookup_sessions hne, get]
  · rw [Call.run_still hwrites]

/-!
## Records as they are dumped
-/

def readText : Option Json -> Option String
  | some (.str s) => some s
  | _ => none

def readCount : Option Json -> Option Nat
  | some (.int (.ofNat n)) => some n
  | _ => none

def readFlag : Option Json -> Option Bool
  | some (.bool b) => some b
  | _ => none

def readExecution : Option Json -> Option (String × Option String × String)
  | some (.arr [.str file, .null, .str time]) => some (file, none, time)
  | some (.arr [.str file, .str cell, .str time]) => some (file, some cell, time)
  | _ => none

def readOr {value : Type} (default : value) (read : Option Json -> Option value) :
    Option Json -> Option value
  | none => some default
  | some j => read (some j)

def readMaybe {value : Type} (read : Option Json -> Option value) :
    Option Json -> Option (Option value)
  | none | some .null => some none
  | some j => (read (some j)).map some

def orNull {value : Type} (write : value -> Json) (a : Option value) : Json := a.elim .null write

def count (n : Nat) : Json := .int (.ofNat n)

def execution (e : String × Option String × String) : Json :=
  .arr [.str e.1, orNull .str e.2.1, .str e.2.2]

/-- The records as they are dumped, and no others, are valid. -/
def dumpedRecords : RecordModel where
  dump s := .obj [
    ("name", .str s.name), ("token", .str s.token), ("url", .str s.url),
    ("endpoint", .str s.endpoint), ("variant", .str s.variant),
    ("accelerator", .str s.accelerator), ("machine_shape", .str s.machineShape),
    ("kernel_id", orNull .str s.kernelId), ("session_id", orNull .str s.sessionId),
    ("last_execution", orNull execution s.lastExecution), ("running", orNull .str s.running),
    ("keep_alive_pid", orNull count s.keepAlivePid),
    ("last_keep_alive_ping", orNull .str s.lastKeepAlivePing),
    ("keep_alive_consecutive_failures", count s.keepAliveConsecutiveFailures),
    ("keep_alive_disabled", .bool s.keepAliveDisabled), ("exec_pid", orNull count s.execPid),
    ("exec_log_path", orNull .str s.execLogPath)]
  validate
    | .obj fields => do
        let name <- readText (fields.lookup "name")
        let token <- readText (fields.lookup "token")
        let url <- readText (fields.lookup "url")
        let endpoint <- readText (fields.lookup "endpoint")
        let variant <- readOr "DEFAULT" readText (fields.lookup "variant")
        let accelerator <- readOr "NONE" readText (fields.lookup "accelerator")
        let machineShape <- readOr "STANDARD" readText (fields.lookup "machine_shape")
        let kernelId <- readMaybe readText (fields.lookup "kernel_id")
        let sessionId <- readMaybe readText (fields.lookup "session_id")
        let lastExecution <- readMaybe readExecution (fields.lookup "last_execution")
        let running <- readMaybe readText (fields.lookup "running")
        let keepAlivePid <- readMaybe readCount (fields.lookup "keep_alive_pid")
        let lastKeepAlivePing <- readMaybe readText (fields.lookup "last_keep_alive_ping")
        let keepAliveConsecutiveFailures <-
          readOr 0 readCount (fields.lookup "keep_alive_consecutive_failures")
        let keepAliveDisabled <- readOr false readFlag (fields.lookup "keep_alive_disabled")
        let execPid <- readMaybe readCount (fields.lookup "exec_pid")
        let execLogPath <- readMaybe readText (fields.lookup "exec_log_path")
        pure { name, token, url, endpoint, variant, accelerator, machineShape, kernelId,
               sessionId, lastExecution, running, keepAlivePid, lastKeepAlivePing,
               keepAliveConsecutiveFailures, keepAliveDisabled, execPid, execLogPath }
    | _ => none

theorem readMaybe_orNull {value : Type} {read : Option Json -> Option value}
    {write : value -> Json} (hback : forall a, read (some (write a)) = some a)
    (hnull : read (some .null) = none) (a : Option value) :
    readMaybe read (some (orNull write a)) = some a := by
  cases a with
  | none => rfl
  | some a =>
      have hne : write a ≠ .null := by
        intro heq
        have hread := hback a
        rw [heq, hnull] at hread
        cases hread
      change readMaybe read (some (write a)) = _
      unfold readMaybe
      split
      · next h => cases h
      · next h => exact absurd (Option.some.inj h) hne
      · next j h =>
          cases h
          rw [hback]
          rfl

theorem readMaybe_text (a : Option String) :
    readMaybe readText (some (orNull .str a)) = some a :=
  readMaybe_orNull (fun _ => rfl) rfl a

theorem readMaybe_count (a : Option Nat) :
    readMaybe readCount (some (orNull count a)) = some a :=
  readMaybe_orNull (fun _ => rfl) rfl a

theorem readMaybe_execution (a : Option (String × Option String × String)) :
    readMaybe readExecution (some (orNull execution a)) = some a := by
  refine readMaybe_orNull (fun e => ?_) rfl a
  rcases e with ⟨file, cell, time⟩
  cases cell <;> rfl

theorem dumpedRecords_roundTrips : dumpedRecords.RoundTrips := by
  intro s
  change (do
    let kernelId <- readMaybe readText (some (orNull .str s.kernelId))
    let sessionId <- readMaybe readText (some (orNull .str s.sessionId))
    let lastExecution <- readMaybe readExecution (some (orNull execution s.lastExecution))
    let running <- readMaybe readText (some (orNull .str s.running))
    let keepAlivePid <- readMaybe readCount (some (orNull count s.keepAlivePid))
    let lastKeepAlivePing <- readMaybe readText (some (orNull .str s.lastKeepAlivePing))
    let execPid <- readMaybe readCount (some (orNull count s.execPid))
    let execLogPath <- readMaybe readText (some (orNull .str s.execLogPath))
    pure { s with kernelId, sessionId, lastExecution, running, keepAlivePid, lastKeepAlivePing,
                  execPid, execLogPath }) = some s
  simp only [readMaybe_text, readMaybe_count, readMaybe_execution, Option.bind_eq_bind,
    Option.bind_some]
  rfl

def record (name : String) : SessionState := { name, token := "t", url := "u", endpoint := "e" }

def dumpedItem (name : String) : String × Json := (name, dumpedRecords.dump (record name))

theorem others_kept_iff_added :
    Kept dumpedRecords "b" (.records [dumpedItem "a"])
      ((Call.add (record "b")).run dumpedRecords (.records [dumpedItem "a"]) .completed) := by
  refine (others_kept_iff dumpedRecords_roundTrips (.records [dumpedItem "a"])
    (.add (record "b")) .completed).mpr (Or.inr (Or.inl ⟨rfl, ?_⟩))
  intro item hitem
  rw [List.mem_singleton.mp hitem]
  exact congrArg Option.isSome (dumpedRecords_roundTrips (record "a"))

/-- A record next to one that is not valid, and a record in a file that is being written. -/
theorem valid_record_lost :
    ¬Kept dumpedRecords "b" (.records [dumpedItem "a", ("x", .obj [])])
      ((Call.add (record "b")).run dumpedRecords (.records [dumpedItem "a", ("x", .obj [])])
        .completed) ∧
    ¬Kept dumpedRecords "b" (.records [dumpedItem "a"])
      ((Call.add (record "b")).run dumpedRecords (.records [dumpedItem "a"]) .truncated) := by
  have hne : "a" ≠ "b" := by decide
  constructor
  · intro hkept
    have hafter := hkept "a" (record "a") hne (by decide)
    revert hafter
    decide
  · intro hkept
    have hafter := hkept "a" (record "a") hne (by decide)
    cases hafter

end Store
end Session
end MightyColab
