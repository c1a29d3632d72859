import MightyColab.Lib.Path
import MightyColab.Lib.Prog
import MightyColab.Job.Runner

/-!
# Staged downloads

`_http_get_to_file` streams one response into a temporary file beside the destination and
puts it in place once its size and digest are as planned; `_stage` does so for the items of
a manifest, up to the first that fails. Every step may raise an exception, and the file that
is written may be left with any part of what was written to it.
-/

namespace MightyColab
namespace Job

open Lib

namespace Staging

open Runner

abbrev Bytes := List UInt8

/-!
## The file system and the answers
-/

inductive Entry where
  | file (bytes : Bytes)
  | directory
  deriving DecidableEq, Repr

structure Vm where
  disk : String -> Option Entry
  /-- The temporary file of this download has been opened. -/
  opened : Bool := false

def Vm.put (v : Vm) (path : String) (entry : Option Entry) : Vm :=
  { v with disk := Function.update v.disk path entry }

/-- One `response.read`, and what writing the bytes raises. -/
structure Read where
  chunk : Except Failure Bytes
  write : Option Failure := none

/-- What `os.unlink` raises. -/
inductive UnlinkFault where
  | osError
  | other (e : Failure)
  deriving DecidableEq, Repr

structure Get where
  makedirs : Option Failure := none
  urlopen : Option Failure := none
  openTemp : Option Failure := none
  /-- A response without further reads is at its end. -/
  reads : List Read
  flush : Option Failure := none
  fsync : Option Failure := none
  closeTemp : Option Failure := none
  closeResponse : Option Failure := none
  replace : Option Failure := none
  afterReplace : Option Failure := none
  unlink : Option UnlinkFault := none

/-- What the manifest says of the file: `expected_size` and `expected_hash`. -/
structure Planned where
  size : Json := .null
  hash : Json := .null

/-- `hashlib.sha256(..).hexdigest()` and `str.lower`. -/
structure Hashing where
  sha256 : Bytes -> String
  lower : String -> String

/-!
## One download
-/

abbrev Download (result : Type) := Prog Vm Failure result

def attempted (fault : Option Failure) : Download Unit :=
  match fault with
  | none => return ()
  | some e => Prog.raise e

def osFailure (exception message : String) : Failure :=
  { exception, message, kind := .localDisk }

def stagedMismatch (kind : FailureKind) (message : String) : Failure :=
  { exception := "StagedMismatch", message, kind }

/-- `size > expected_size`. -/
def exceeds (size : Nat) : Json -> Except Failure Bool
  | .float none text => .ok (text = "-inf")
  | .float (some q) _ => .ok (q < size)
  | expected =>
      match expected.asInt? with
      | some n => .ok (n < size)
      | none => .error { exception := "TypeError", message :=
          s!"'>' not supported between instances of 'int' and '{expected.typeName}'", kind := .other }

def tooLarge (expected : Json) : Failure :=
  stagedMismatch .size s!"received more than the planned {expected.pyStr} bytes"

/-- The running check of the size, with `size` bytes so far. -/
def capSize (expected : Json) (size : Nat) : Download Unit :=
  if expected.isNull then return ()
  else
    match exceeds size expected with
    | .error e => Prog.raise e
    | .ok true => Prog.raise (tooLarge expected)
    | .ok false => return ()

def createTemp (fault : Option Failure) (temp : String) : Download Unit := do
  attempted fault
  let v ← Prog.get
  if v.disk temp = some .directory then
    Prog.raise (osFailure "IsADirectoryError" s!"[Errno 21] Is a directory: {Json.reprStr temp}")
  else Prog.modify fun v => { v.put temp (some (.file [])) with opened := true }

/-- The `while True` loop; `received` is what has been read and written before. -/
def receive (expected : Json) (temp : String) : List Read -> Bytes -> Download Bytes
  | [], received => return received
  | r :: rest, received =>
      match r.chunk with
      | .error e => Prog.raise e
      | .ok [] => return received
      | .ok chunk => do
          let received := received ++ chunk
          capSize expected received.length
          attempted r.write
          Prog.modify fun v => v.put temp (some (.file received))
          receive expected temp rest received

def checkSize (expected : Json) (size : Nat) : Download Unit :=
  if !expected.isNull && !Json.pyEq (.int size) expected then
    Prog.raise (stagedMismatch .size s!"received {size} bytes, planned {expected.pyStr}")
  else return ()

def checkHash (h : Hashing) (expected : Json) (digest : String) : Download Unit :=
  if !expected.isNull && h.lower digest ≠ h.lower expected.pyStr then
    Prog.raise (stagedMismatch .checksum
      s!"received sha256 {digest}, planned {h.lower expected.pyStr}")
  else return ()

/-- `os.replace(tmp, path)`. -/
def replaceFile (fault : Option Failure) (temp path : String) : Download Unit := do
  attempted fault
  let v ← Prog.get
  if v.disk path = some .directory then
    Prog.raise (osFailure "IsADirectoryError"
      s!"[Errno 21] Is a directory: {Json.reprStr temp} -> {Json.reprStr path}")
  else Prog.modify fun v => (v.put path (v.disk temp)).put temp none

/-- `os.unlink(tmp)`, with its `except OSError`. -/
def unlinkTemp (fault : Option UnlinkFault) (temp : String) : Download Unit :=
  match fault with
  | some .osError => return ()
  | some (.other e) => Prog.raise e
  | none =>
      Prog.modify fun v => if v.disk temp = some .directory then v else v.put temp none

def tempPath (path : String) (pid : Nat) : String := path ++ ".tmp." ++ toString pid

/-- What the two `with` blocks do. -/
def fetchBody (a : Get) (expected : Json) (temp : String) : Download Bytes := do
  attempted a.urlopen
  Prog.ensure
    (do
      createTemp a.openTemp temp
      Prog.ensure
        (do
          let received ← receive expected temp a.reads []
          attempted a.flush
          attempted a.fsync
          return received)
        (attempted a.closeTemp))
    (attempted a.closeResponse)

/-- The `try` block. -/
def fetchFile (h : Hashing) (a : Get) (planned : Planned) (temp path : String) :
    Download (Nat × String) := do
  let received ← fetchBody a planned.size temp
  let digest := h.sha256 received
  checkSize planned.size received.length
  checkHash h planned.hash digest
  replaceFile a.replace temp path
  attempted a.afterReplace
  return (received.length, digest)

def httpGetToFile (h : Hashing) (pid : Nat) (a : Get) (planned : Planned) (path : String) :
    Download (Nat × String) := do
  attempted a.makedirs
  let temp := tempPath path pid
  Prog.attempt (fetchFile h a planned temp path) fun e => do
    unlinkTemp a.unlink temp
    Prog.raise e

/-!
## What a download should leave
-/

/-- The bytes of the response, up to its end or its first failure. -/
def body : List Read -> Bytes
  | [] => []
  | r :: rest =>
      match r.chunk with
      | .ok [] => []
      | .ok chunk => chunk ++ body rest
      | .error _ => []

def Matches (h : Hashing) (planned : Planned) (bytes : Bytes) : Prop :=
  (planned.size.isNull = true ∨ Json.pyEq (.int bytes.length) planned.size = true) ∧
    (planned.hash.isNull = true ∨ h.lower (h.sha256 bytes) = h.lower planned.hash.pyStr)

/-- The destination has the bytes that were received, which are as planned. -/
def Filled (h : Hashing) (a : Get) (planned : Planned) (path : String) (v : Vm) : Prop :=
  v.disk path = some (.file (body a.reads)) ∧ Matches h planned (body a.reads)

def measured (h : Hashing) (a : Get) : Nat × String :=
  ((body a.reads).length, h.sha256 (body a.reads))

/-- The destination is filled or as it was, and the temporary file is gone unless removing it
has failed. -/
structure Verified (h : Hashing) (pid : Nat) (a : Get) (planned : Planned) (path : String)
    (disk : String -> Option Entry) (o : Outcome Failure (Nat × String)) (v : Vm) : Prop where
  dest : v.disk path = disk path ∨ Filled h a planned path v
  temp : v.opened = true -> a.unlink = none -> v.disk (tempPath path pid) = none
  returned : forall result, o = .ok result -> Filled h a planned path v ∧ result = measured h a

variable {h : Hashing} {pid : Nat} {a : Get} {planned : Planned} {path temp : String}
  {disk : String -> Option Entry} {v : Vm}

@[simp] theorem put_self (v : Vm) (path : String) (entry : Option Entry) :
    (v.put path entry).disk path = entry := Function.update_self _ _ _

theorem put_other {other : String} (hne : other ≠ path) (v : Vm) (entry : Option Entry) :
    (v.put path entry).disk other = v.disk other := Function.update_of_ne hne _ _

theorem path_ne_temp (path : String) (pid : Nat) : path ≠ tempPath path pid := by
  intro heq
  have hlength := congrArg String.length heq
  unfold tempPath at hlength
  rw [String.length_append, String.length_append] at hlength
  have hdot : ".tmp.".length = 5 := by decide
  omega

/-!
## What the steps keep
-/

/-- The destination is as it was, and an opened temporary file is no directory. -/
structure Untouched (path temp : String) (disk : String -> Option Entry) (v : Vm) : Prop where
  dest : v.disk path = disk path
  noDirectory : v.opened = true -> v.disk temp ≠ some .directory

/-- The temporary file holds these bytes. -/
structure Written (path temp : String) (disk : String -> Option Entry) (bytes : Bytes) (v : Vm) :
    Prop extends Untouched path temp disk v where
  bytes : v.disk temp = some (.file bytes)

theorem attempted_still (fault : Option Failure) : Prog.Still (attempted fault) := by
  cases fault <;> exact fun _ => rfl

theorem still_keeps {result : Type} {p : Download result} {inv : Vm -> Prop} (hp : Prog.Still p) :
    Prog.Keeps inv p := by
  intro v hv
  rw [hp v]
  exact hv

theorem attempted_keeps {inv : Vm -> Prop} (fault : Option Failure) :
    Prog.Keeps inv (attempted fault) := still_keeps (attempted_still fault)

theorem capSize_still (expected : Json) (size : Nat) : Prog.Still (capSize expected size) := by
  unfold capSize
  split
  · exact fun _ => rfl
  · split <;> exact fun _ => rfl

theorem Written.put (hne : path ≠ temp) (hv : Untouched path temp disk v) (bytes : Bytes) :
    Written path temp disk bytes (v.put temp (some (.file bytes))) := by
  refine ⟨⟨?_, ?_⟩, put_self _ _ _⟩
  · rw [put_other hne]
    exact hv.dest
  · intro _
    rw [put_self]
    exact nofun

theorem createTemp_exits (hne : path ≠ temp) (fault : Option Failure) :
    Prog.Triple (Untouched path temp disk) (createTemp fault temp)
      (Prog.Exits (Untouched path temp disk) fun _ => Written path temp disk []) := by
  refine Prog.Exits.bind ((attempted_keeps fault).exits fun _ hv => hv) fun _ => ?_
  refine Prog.Triple.get_bind fun v hv => ?_
  split
  · intro v' heq
    rw [heq]
    exact hv
  · intro v' heq
    rw [heq]
    have hwritten := Written.put hne hv []
    have hfile : (v.put temp (some (.file []))).disk temp ≠ some .directory := by
      rw [hwritten.bytes]
      exact nofun
    exact ⟨⟨hwritten.dest, fun _ => hfile⟩, hwritten.bytes⟩

theorem receive_exits (hne : path ≠ temp) (expected : Json) :
    forall (reads : List Read) (received : Bytes),
      Prog.Triple (Written path temp disk received) (receive expected temp reads received)
        (Prog.Exits (Untouched path temp disk) fun bytes v =>
          Written path temp disk bytes v ∧ bytes = received ++ body reads) := by
  intro reads
  induction reads with
  | nil =>
      intro received v hv
      exact ⟨hv, (List.append_nil received).symm⟩
  | cons r rest ih =>
      intro received
      unfold receive body
      cases hchunk : r.chunk with
      | error e => exact Prog.Exits.raise (fun _ hv => hv.toUntouched) e
      | ok chunk =>
          cases chunk with
          | nil =>
              intro v hv
              exact ⟨hv, (List.append_nil received).symm⟩
          | cons b more =>
              simp only
              refine Prog.Exits.bind ((still_keeps (capSize_still _ _)).exits
                fun _ hv => Written.toUntouched hv) fun _ => ?_
              refine Prog.Exits.bind ((attempted_keeps r.write).exits
                fun _ hv => Written.toUntouched hv) fun _ => ?_
              refine Prog.Exits.bind (m := fun _ => Written path temp disk (received ++ b :: more))
                (fun v hv => Written.put hne hv.toUntouched _) fun _ => ?_
              refine Prog.Exits.weaken (ih _) ?_
              intro bytes v hv
              rw [← List.append_assoc]
              exact hv

theorem fetchBody_exits (hne : path ≠ temp) (a : Get) (expected : Json) :
    Prog.Triple (Untouched path temp disk) (fetchBody a expected temp)
      (Prog.Exits (Untouched path temp disk) fun bytes v =>
        Written path temp disk bytes v ∧ bytes = body a.reads) := by
  have hleft : forall (bytes : Bytes) (v : Vm),
      Written path temp disk bytes v ∧ bytes = body a.reads -> Untouched path temp disk v :=
    fun _ _ hv => hv.left.toUntouched
  refine Prog.Exits.bind ((attempted_keeps a.urlopen).exits fun _ hv => hv) fun _ => ?_
  refine Prog.Exits.ensure_still ?_ (attempted_still _) hleft
  refine Prog.Exits.bind (createTemp_exits hne a.openTemp) fun _ => ?_
  refine Prog.Exits.ensure_still ?_ (attempted_still _) hleft
  refine Prog.Exits.bind (receive_exits hne expected a.reads []) fun bytes => ?_
  refine Prog.Exits.bind ((attempted_keeps a.flush).exits fun v hv => hleft bytes v hv) fun _ => ?_
  refine Prog.Exits.bind ((attempted_keeps a.fsync).exits fun v hv => hleft bytes v hv) fun _ => ?_
  exact fun _ hv => hv

theorem checkSize_exits {pre : Vm -> Prop} (expected : Json) (size : Nat) :
    Prog.Triple pre (checkSize expected size) (Prog.Exits pre fun _ v =>
      pre v ∧ (expected.isNull = true ∨ Json.pyEq (.int size) expected = true)) := by
  unfold checkSize
  split
  · exact fun _ hv => hv
  · next hmatch =>
      intro v hv
      refine ⟨hv, ?_⟩
      cases hnull : expected.isNull with
      | true => exact Or.inl rfl
      | false => simpa [hnull] using hmatch

theorem checkHash_exits {pre : Vm -> Prop} (h : Hashing) (expected : Json) (digest : String) :
    Prog.Triple pre (checkHash h expected digest) (Prog.Exits pre fun _ v =>
      pre v ∧ (expected.isNull = true ∨ h.lower digest = h.lower expected.pyStr)) := by
  unfold checkHash
  split
  · exact fun _ hv => hv
  · next hmatch =>
      intro v hv
      refine ⟨hv, ?_⟩
      cases hnull : expected.isNull with
      | true => exact Or.inl rfl
      | false => simpa [hnull] using hmatch

/-- What a download has done by the time that nothing more is written to the destination. -/
structure Ended (h : Hashing) (a : Get) (planned : Planned) (path temp : String)
    (disk : String -> Option Entry) (v : Vm) : Prop where
  dest : v.disk path = disk path ∨ Filled h a planned path v
  noDirectory : v.opened = true -> v.disk temp ≠ some .directory

theorem Untouched.ended (hv : Untouched path temp disk v) : Ended h a planned path temp disk v :=
  ⟨Or.inl hv.dest, hv.noDirectory⟩

theorem filled_ended (hv : Filled h a planned path v ∧ v.disk temp = none) :
    Ended h a planned path temp disk v :=
  ⟨Or.inr hv.left, fun _ => by rw [hv.right]; exact nofun⟩

theorem replaceFile_exits (hne : path ≠ temp) (hmatch : Matches h planned (body a.reads)) :
    Prog.Triple (Written path temp disk (body a.reads)) (replaceFile a.replace temp path)
      (Prog.Exits (Ended h a planned path temp disk) fun _ v =>
        Filled h a planned path v ∧ v.disk temp = none) := by
  refine Prog.Exits.bind ((attempted_keeps a.replace).exits fun _ hv =>
    (Written.toUntouched hv).ended) fun _ => ?_
  refine Prog.Triple.get_bind fun v hv => ?_
  split
  · intro v' heq
    rw [heq]
    exact hv.toUntouched.ended
  · intro v' heq
    rw [heq]
    have hfilled : ((v.put path (v.disk temp)).put temp none).disk path =
        some (.file (body a.reads)) := by
      rw [put_other hne, put_self, hv.bytes]
    exact ⟨⟨hfilled, hmatch⟩, put_self _ _ _⟩

theorem fetchFile_exits (planned : Planned) (hne : path ≠ temp) :
    Prog.Triple (Untouched path temp disk) (fetchFile h a planned temp path)
      (Prog.Exits (Ended h a planned path temp disk) fun result v =>
        (Filled h a planned path v ∧ v.disk temp = none) ∧ result = measured h a) := by
  unfold fetchFile
  refine Prog.Exits.bind ((fetchBody_exits hne a planned.size).conseq (fun _ hv => hv)
    fun o v hv => Prog.Exits.widen (fun _ => Untouched.ended) hv) fun received => ?_
  refine Prog.Exits.bind ((checkSize_exits _ _).conseq (fun _ hv => hv)
    fun o v hv => Prog.Exits.widen (fun _ hv => hv.left.toUntouched.ended) hv) fun _ => ?_
  refine Prog.Exits.bind ((checkHash_exits h _ _).conseq (fun _ hv => hv)
    fun o v hv => Prog.Exits.widen (fun _ hv => hv.left.left.toUntouched.ended) hv) fun _ => ?_
  intro v hv
  rcases hv with ⟨⟨⟨hwritten, hreceived⟩, hsize⟩, hhash⟩
  rw [hreceived] at hwritten hsize hhash
  refine Prog.Exits.bind (replaceFile_exits hne ⟨hsize, hhash⟩) (fun _ => ?_) v hwritten
  refine Prog.Exits.bind ((attempted_keeps a.afterReplace).exits fun _ => filled_ended) fun _ => ?_
  intro v hv
  exact ⟨hv, by rw [hreceived]; rfl⟩

theorem unlinkTemp_triple (hne : path ≠ temp) (fault : Option UnlinkFault) :
    Prog.Triple (Ended h a planned path temp disk) (unlinkTemp fault temp) fun _ v =>
      Ended h a planned path temp disk v ∧
        (v.opened = true -> fault = none -> v.disk temp = none) := by
  intro v hv
  unfold unlinkTemp
  cases fault with
  | some fault => cases fault <;> exact ⟨hv, fun _ => nofun⟩
  | none =>
      simp only [Prog.modify_run]
      split
      · next hdir => exact ⟨hv, fun hopened => absurd hdir (hv.noDirectory hopened)⟩
      · refine ⟨⟨?_, fun _ => ?_⟩, fun _ _ => put_self _ _ _⟩
        · unfold Filled
          rw [put_other hne]
          exact hv.dest
        · rw [put_self]
          exact nofun

/-!
## Every step returns or raises
-/

theorem attempted_lasts (fault : Option Failure) : Prog.Lasts (attempted fault) := by
  cases fault with
  | none => exact Prog.Lasts.pure _
  | some e => exact Prog.Lasts.raise e

theorem capSize_lasts (expected : Json) (size : Nat) : Prog.Lasts (capSize expected size) := by
  unfold capSize
  split
  · exact Prog.Lasts.pure _
  · split
    · exact Prog.Lasts.raise _
    · exact Prog.Lasts.raise _
    · exact Prog.Lasts.pure _

theorem receive_lasts (expected : Json) (temp : String) :
    forall (reads : List Read) (received : Bytes),
      Prog.Lasts (receive expected temp reads received) := by
  intro reads
  induction reads with
  | nil => exact fun _ => Prog.Lasts.pure _
  | cons r rest ih =>
      intro received
      unfold receive
      split
      · exact Prog.Lasts.raise _
      · exact Prog.Lasts.pure _
      · exact (capSize_lasts _ _).bind fun _ => (attempted_lasts _).bind fun _ =>
          (Prog.Lasts.modify _).bind fun _ => ih _

theorem guarded_lasts {c : Vm -> Prop} [forall v, Decidable (c v)] {e : Failure} {f : Vm -> Vm} :
    Prog.Lasts (do
      let v ← Prog.get
      if c v then Prog.raise e else Prog.modify f : Download Unit) := by
  refine Prog.Lasts.get.bind fun v => ?_
  split
  · exact Prog.Lasts.raise e
  · exact Prog.Lasts.modify f

theorem fetchFile_lasts (h : Hashing) (a : Get) (planned : Planned) (temp path : String) :
    Prog.Lasts (fetchFile h a planned temp path) := by
  refine Prog.Lasts.bind ((attempted_lasts _).bind fun _ => Prog.Lasts.ensure ?_ (attempted_lasts _))
    fun received => ?_
  · refine Prog.Lasts.bind ((attempted_lasts _).bind fun _ => guarded_lasts) fun _ =>
      Prog.Lasts.ensure ?_ (attempted_lasts _)
    exact (receive_lasts _ _ _ _).bind fun _ => (attempted_lasts _).bind fun _ =>
      (attempted_lasts _).bind fun _ => Prog.Lasts.pure _
  · refine Prog.Lasts.bind ?_ fun _ => Prog.Lasts.bind ?_ fun _ => Prog.Lasts.bind
      ((attempted_lasts _).bind fun _ => guarded_lasts) fun _ => (attempted_lasts _).bind fun _ =>
        Prog.Lasts.pure _
    · unfold checkSize
      split
      · exact Prog.Lasts.raise _
      · exact Prog.Lasts.pure _
    · unfold checkHash
      split
      · exact Prog.Lasts.raise _
      · exact Prog.Lasts.pure _

theorem httpGetToFile_verified (h : Hashing) (pid : Nat) (a : Get) (planned : Planned)
    (path : String) (disk : String -> Option Entry) :
    Verified h pid a planned path disk (httpGetToFile h pid a planned path { disk }).1
      (httpGetToFile h pid a planned path { disk }).2 := by
  have hne := path_ne_temp path pid
  have hstart : Untouched path (tempPath path pid) disk { disk } := ⟨rfl, nofun⟩
  unfold httpGetToFile
  cases a.makedirs with
  | some e => exact ⟨Or.inl rfl, nofun, nofun⟩
  | none =>
      have hrun := fetchFile_exits (h := h) (a := a) planned hne _ hstart
      have hlasts := fetchFile_lasts h a planned (tempPath path pid) path { disk }
      rw [attempted, Prog.bind_run_ok (Prog.pure_run _ _)]
      rcases hend : fetchFile h a planned (tempPath path pid) path { disk } with ⟨o, v⟩
      rw [hend] at hrun hlasts
      cases o with
      | ok r =>
          rw [Prog.attempt_run_ok hend]
          refine ⟨Or.inr hrun.left.left, fun _ _ => hrun.left.right, fun result heq => ?_⟩
          cases heq
          exact ⟨hrun.left.left, hrun.right⟩
      | ended => exact absurd rfl hlasts
      | raised e =>
          have hgone := unlinkTemp_triple hne a.unlink v hrun
          rw [Prog.attempt_run_raised hend]
          refine ⟨?_, ?_, ?_⟩
          · rw [Prog.bind_still fun _ _ => rfl]
            exact hgone.left.dest
          · rw [Prog.bind_still fun _ _ => rfl]
            exact hgone.right
          · intro result hok
            rw [Prog.bind_run] at hok
            split at hok <;> cases hok

/-!
## Staging a manifest
-/

/-- What staging one job is given: what each item's download meets, the runner's process and
the job's directory. -/
structure Stage where
  hashing : Hashing
  reader : UrlReader
  urls : List (String × String)
  pid : Nat
  jobDir : String
  gets : Nat -> Get

def wanted (st : Stage) (item : Json) : Option (String × Planned) :=
  match item with
  | .obj fields =>
      match Json.Fields.get fields "dest", resolveTransferUrl st.reader fields st.urls with
      | .str dest, .ok _ =>
          some (dest, ⟨Json.Fields.get fields "size_bytes", Json.Fields.get fields "sha256"⟩)
      | _, _ => none
  | _ => none

/-- How a download ends, for `_stage_one`. -/
def fetched (o : Outcome Failure (Nat × String)) : Fetch :=
  match o with
  | .ok result => .ok result
  | .raised e => .error (.failure e)
  | .ended => .error (.base ⟨"SystemExit", ""⟩)

structure Staged where
  records : List Json := []
  ended : Option StageError := none
  disk : String -> Option Entry
  /-- The items whose downloads were begun, in order. -/
  begun : List Json := []

/-- The download of the `n`-th item. -/
def download (st : Stage) (n : Nat) (dest : String) (planned : Planned)
    (disk : String -> Option Entry) : Outcome Failure (Nat × String) × Vm :=
  httpGetToFile st.hashing st.pid (st.gets n) planned (Path.join st.jobDir dest) { disk }

/-- `_stage_one` on the VM: what it gives or raises, the disk, and whether it has begun a
download. -/
def stageItem (st : Stage) (n : Nat) (item : Json) (disk : String -> Option Entry) :
    Except StageError Json × (String -> Option Entry) × List Json :=
  match wanted st item with
  | none => (stageOne st.reader st.urls (fetched .ended) item, disk, [])
  | some (dest, planned) =>
      let run := download st n dest planned disk
      (stageOne st.reader st.urls (fetched run.1) item, run.2.disk, [item])

/-- `_stage`, from the `n`-th item on. -/
def stageFrom (st : Stage) : Nat -> List Json -> (String -> Option Entry) -> Staged
  | _, [], disk => { disk }
  | n, item :: rest, disk =>
      match stageItem st n item disk with
      | (.ok record, disk, begun) =>
          let later := stageFrom st (n + 1) rest disk
          { later with records := record :: later.records, begun := begun ++ later.begun }
      | (.error (.item record dest reason), disk, begun) =>
          { records := [record], ended := some (.item record dest reason), disk, begun }
      | (.error e, disk, begun) => { ended := some e, disk, begun }

def stage (st : Stage) (path : Option String) (read : Except Failure Json)
    (disk : String -> Option Entry) : Staged :=
  match loadManifest path read with
  | .error e => { ended := some (.setup e.toRaised), disk }
  | .ok items => stageFrom st 0 items disk

/-!
## The records
-/

def Succeeded (item record : Json) : Prop :=
  exists fields dest urlId digest size, item = .obj fields ∧
    Json.Fields.get fields "dest" = .str dest ∧
    record = transferRecord "dest" (.str dest) (.str urlId) .ok (some digest) (some size) none

def destOf (item : Json) : Json :=
  (item.asObj?.map fun f => Json.Fields.get f "dest").getD .null

def Failed (item record : Json) : Prop :=
  exists urlId e, record =
    transferRecord "dest" (.str (strOrEmpty (destOf item))) (.str urlId) .failed none none (some e)

/-- The records are successes in the order of the items and then one failure at most, and the
downloads begun are those of the items that succeeded and at most that of the next one. -/
structure InOrder (items : List Json) (s : Staged) : Prop where
  split : exists done rest oks, items = done ++ rest ∧ List.Forall₂ Succeeded done oks ∧
    ((rest = [] ∧ s.records = oks ∧ s.begun = done) ∨
      exists item more failures, rest = item :: more ∧ s.records = oks ++ failures ∧
        (failures = [] ∨ exists failure, failures = [failure] ∧ Failed item failure) ∧
        (s.begun = done ∨ s.begun = done ++ [item]))

variable {st : Stage} {item : Json} {items : List Json} {n : Nat}

/-- What `_stage_one` makes of a download. -/
def staged (item : Json) (urlId : String) (fetch : Fetch) : Except StageError Json :=
  match fetch with
  | .ok (size, digest) =>
      .ok (transferRecord "dest" (destOf item) (.str urlId) .ok (some digest) (some size) none)
  | .error (.failure e) =>
      .error (.item
        (transferRecord "dest" (.str (strOrEmpty (destOf item))) (.str urlId) .failed none none
          (some e))
        (strOrEmpty (destOf item)) e.message)
  | .error (.base e) => .error (.setup e)

theorem stageOne_wanted {dest : String} {planned : Planned}
    (h : wanted st item = some (dest, planned)) :
    (exists fields, item = .obj fields ∧ Json.Fields.get fields "dest" = .str dest) ∧
      exists urlId, forall fetch, stageOne st.reader st.urls fetch item = staged item urlId fetch := by
  unfold wanted at h
  cases item with
  | obj fields =>
      simp only at h
      split at h
      · next dest' url hdest hurl =>
          cases h
          refine ⟨⟨fields, rfl, hdest⟩, ?_⟩
          simp only [stageOne, staged, destOf, Json.asObj?, Option.map_some, Option.getD_some, hdest,
            hurl, strOrEmpty]
          exact ⟨_, fun _ => rfl⟩
      · cases h
  | _ => cases h

theorem stageOne_unwanted (h : wanted st item = none) :
    exists urlId e, forall fetch,
      stageOne st.reader st.urls fetch item = staged item urlId (.error (.failure e)) := by
  unfold wanted at h
  cases item with
  | obj fields =>
      simp only at h
      simp only [stageOne, staged, destOf, Json.asObj?, Option.map_some, Option.getD_some]
      cases hdest : Json.Fields.get fields "dest" with
      | str dest =>
          cases hurl : resolveTransferUrl st.reader fields st.urls with
          | ok url =>
              rw [hdest, hurl] at h
              cases h
          | error e => exact ⟨_, e, fun _ => rfl⟩
      | _ => exact ⟨_, _, fun _ => rfl⟩
  | _ => exact ⟨_, _, fun _ => rfl⟩

/-- One item: its download is begun if the item is understood, and a success has been
downloaded. -/
theorem stageItem_cases (st : Stage) (n : Nat) (item : Json) (disk : String -> Option Entry) :
    match stageItem st n item disk with
    | (.ok record, _, begun) => Succeeded item record ∧ begun = [item]
    | (.error (.item record _ _), _, begun) =>
        Failed item record ∧ (begun = [] ∨ begun = [item])
    | (.error (.setup _), _, begun) => begun = [] ∨ begun = [item] := by
  unfold stageItem
  cases hwanted : wanted st item with
  | none =>
      rcases stageOne_unwanted hwanted with ⟨urlId, e, hone⟩
      rw [hone]
      exact ⟨⟨urlId, e, rfl⟩, Or.inl rfl⟩
  | some found =>
      rcases found with ⟨dest, planned⟩
      rcases stageOne_wanted hwanted with ⟨⟨fields, rfl, hdest⟩, urlId, hone⟩
      simp only [hone]
      generalize (download st n dest planned disk).2.disk = disk'
      cases (download st n dest planned disk).1 with
      | ok result =>
          refine ⟨⟨fields, dest, urlId, result.2, result.1, rfl, hdest, ?_⟩, rfl⟩
          rw [← hdest]
          rfl
      | raised e => exact ⟨⟨urlId, e, rfl⟩, Or.inr rfl⟩
      | ended => exact Or.inr rfl

theorem stageFrom_inOrder (st : Stage) : forall (items : List Json) (n : Nat)
    (disk : String -> Option Entry), InOrder items (stageFrom st n items disk) := by
  intro items
  induction items with
  | nil => exact fun n disk => ⟨[], [], [], rfl, List.Forall₂.nil, Or.inl ⟨rfl, rfl, rfl⟩⟩
  | cons item rest ih =>
      intro n disk
      have hone := stageItem_cases st n item disk
      unfold stageFrom
      rcases hstage : stageItem st n item disk with ⟨result, disk', begun⟩
      rw [hstage] at hone
      cases result with
      | ok record =>
          rcases hone with ⟨hrecord, rfl⟩
          rcases (ih (n + 1) disk').split with ⟨done, left, oks, hsplit, hoks, hend⟩
          refine ⟨item :: done, left, record :: oks, by rw [hsplit]; rfl,
            List.Forall₂.cons hrecord hoks, ?_⟩
          rcases hend with ⟨hleft, hrecords, hbegun⟩ | ⟨next, more, failures, hleft, hrecords, hend⟩
          · exact Or.inl ⟨hleft, congrArg (record :: ·) hrecords, congrArg (item :: ·) hbegun⟩
          · refine Or.inr ⟨next, more, failures, hleft, congrArg (record :: ·) hrecords, hend.left, ?_⟩
            rcases hend.right with hbegun | hbegun
            · exact Or.inl (congrArg (item :: ·) hbegun)
            · exact Or.inr (congrArg (item :: ·) hbegun)
      | error e =>
          cases e with
          | item record dest reason =>
              exact ⟨[], item :: rest, [], rfl, List.Forall₂.nil, Or.inr ⟨item, rest, [record], rfl,
                rfl, Or.inr ⟨record, rfl, hone.left⟩, hone.right⟩⟩
          | setup e =>
              exact ⟨[], item :: rest, [], rfl, List.Forall₂.nil, Or.inr ⟨item, rest, [], rfl, rfl,
                Or.inl rfl, hone⟩⟩

/-- The records and the end are those of the runner's `_stage` for what the downloads gave. -/
theorem stageFrom_items (st : Stage) : forall (items : List Json) (n : Nat)
    (disk : String -> Option Entry), exists fetch,
      stageItems st.reader st.urls items fetch =
        ((stageFrom st n items disk).records, (stageFrom st n items disk).ended) := by
  intro items
  induction items with
  | nil => exact fun n disk => ⟨fun _ => fetched .ended, rfl⟩
  | cons item rest ih =>
      intro n disk
      unfold stageFrom
      have hfetch : exists fetch, stageOne st.reader st.urls fetch item =
          (stageItem st n item disk).1 := by
        unfold stageItem
        cases wanted st item with
        | none => exact ⟨fetched .ended, rfl⟩
        | some found =>
            exact ⟨fetched (download st n found.1 found.2 disk).1, rfl⟩
      rcases hfetch with ⟨fetch, hone⟩
      rcases hstage : stageItem st n item disk with ⟨result, disk', begun⟩
      rw [hstage] at hone
      rcases ih (n + 1) disk' with ⟨later, hlater⟩
      refine ⟨fun i => if i = 0 then fetch else later (i - 1), ?_⟩
      rw [stageItems, if_pos rfl, hone]
      cases result with
      | ok record =>
          have hshift : (fun i => if i + 1 = 0 then fetch else later (i + 1 - 1)) = later := rfl
          simp only [hshift, hlater]
      | error e => cases e <;> rfl

/-- A response of two bytes where one was planned, and a temporary file that cannot be
removed. -/
def unremoved : Get where
  reads := [⟨.ok [1, 2], none⟩]
  unlink := some .osError

end Staging
end Job
end MightyColab
