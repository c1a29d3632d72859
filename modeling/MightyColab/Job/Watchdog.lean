import Mathlib.Algebra.Group.Nat.Defs
import Mathlib.Data.List.Infix
import MightyColab.Job.Models
import MightyColab.Lib.Runs

/-!
# The watchdog's loop

The sibling process that enforces the deadline: what it reads in `launch.json`
at each tick, when it sends a signal, and the processes that the signal reaches.
-/

namespace MightyColab
namespace Job

open Lib

namespace Watchdog

/-!
## `launch.json`
-/

inductive PyFloat where
  | finite (value : Rat)
  | posInf
  | negInf
  | nan
  deriving DecidableEq, Repr

/-- `now >= value`. -/
def PyFloat.reached (now : Rat) : PyFloat -> Bool
  | .finite value => decide (value ≤ now)
  | .negInf => true
  | .posInf | .nan => false

def PyFloat.ofJson (value : Option Rat) (text : String) : PyFloat :=
  match value with
  | some q => .finite q
  | none => if text = "nan" then .nan else if text = "-inf" then .negInf else .posInf

/-- What `int(value)` or `float(value)` comes to. -/
inductive Converted (number : Type) where
  | value (n : number)
  /-- `TypeError` or `ValueError`. -/
  | refused
  /-- `OverflowError`. -/
  | overflow
  deriving Repr

/-- `int(text)` and `float(text)`; nothing where they raise `ValueError`. -/
structure TextNumbers where
  int : String -> Option Int
  float : String -> Option PyFloat

def Converted.ofOption {number : Type} : Option number -> Converted number
  | some n => .value n
  | none => .refused

def floatLimit : Nat := 2 ^ 1024 - 2 ^ 970

/-- `float(i)`. -/
def intToFloat (i : Int) : Converted PyFloat :=
  if i.natAbs < floatLimit then .value (.finite i) else .overflow

/-- `int(value)`. -/
def toInt (texts : TextNumbers) : Json -> Converted Int
  | .int i => .value i
  | .bool b => .value (if b then 1 else 0)
  | .float value text =>
      match value with
      | some q => .value (q.num.tdiv q.den)
      | none => if text = "nan" then .refused else .overflow
  | .str s => .ofOption (texts.int s)
  | .null | .arr _ | .obj _ => .refused

/-- `float(value)`. -/
def toFloat (texts : TextNumbers) : Json -> Converted PyFloat
  | .int i => intToFloat i
  | .bool b => .value (.finite (if b then 1 else 0))
  | .float value text => .value (.ofJson value text)
  | .str s => .ofOption (texts.float s)
  | .null | .arr _ | .obj _ => .refused

/-- What `_runner_identity` returns. -/
structure RunnerIdentity where
  pid : Int
  starttime : Json
  bootId : Json
  deadline : Json
  startedAt : Option PyFloat
  error : Option String

/-- `launch.json` as the watchdog finds it: its content, or the type and the text of what
reading it raises. -/
abbrev LaunchRead := Except String Json

/-- `launch`, and why it holds nothing. -/
def launchFields : LaunchRead -> Json.Fields × Option String
  | .error e => ([], some s!"launch.json unreadable: {e}")
  | .ok (.obj fields) => (fields, none)
  | .ok _ => ([], some "launch.json is not an object")

/-- `_runner_identity`; nothing where an `OverflowError` ends the watchdog. -/
def runnerIdentity (texts : TextNumbers) (read : LaunchRead) : Option RunnerIdentity :=
  let (launch, error) := launchFields read
  let found := (Json.Fields.get launch "pid").pyRepr
  let identity (pid : Int) (startedAt : Option PyFloat) : RunnerIdentity :=
    { pid
      starttime := Json.Fields.getD launch "starttime" (.str "")
      bootId := Json.Fields.getD launch "boot_id" (.str "")
      deadline := Json.Fields.get launch "deadline"
      startedAt
      error :=
        if pid ≤ 0 then error.or (some s!"launch.json has no usable pid ({found})") else error }
  let pid := match toInt texts (Json.Fields.getD launch "pid" (.int (-1))) with
    | .value pid => some pid
    | .refused => some (-1)
    | .overflow => none
  let startedAt := match toFloat texts (Json.Fields.get launch "started_at") with
    | .value t => some (some t)
    | .refused => some none
    | .overflow => none
  match pid, startedAt with
  | some pid, some startedAt => some (identity pid startedAt)
  | _, _ => none

/-- The deadline that the watchdog takes from `launch.json`: nothing where reading it raises
`OverflowError`, and no deadline for None or what is not a number. -/
def deadlineValue (texts : TextNumbers) (deadline : Json) : Option (Option PyFloat) :=
  if deadline.isNull then some none
  else match toFloat texts deadline with
    | .value t => some (some t)
    | .refused => some none
    | .overflow => none

/-!
## Processes
-/

inductive Signal where
  | sigterm
  | sigkill
  deriving DecidableEq, Repr

structure Identity where
  pid : Nat
  starttime : String
  deriving DecidableEq, Repr

/-- A process of `/proc` during one sweep for tagged processes. -/
structure Process extends Identity where
  /-- `/proc/<pid>/environ`, if it can be read. -/
  environ : Option (List Char)
  /-- `starttime(pid)` when the signal is due. -/
  startAgain : String
  /-- `os.kill` accepts the signal. -/
  accepts : Bool

/-- What does not change while the watchdog runs. -/
structure Config where
  texts : TextNumbers
  /-- The last part of the job directory's path. -/
  jobId : String
  linux : Bool
  watchdog : Nat
  /-- The runner that started this watchdog. -/
  runner : Identity
  shimPgid : Nat
  runner_pid : 0 < runner.pid
  runner_started : runner.starttime ≠ ""
  distinct : runner.pid ≠ watchdog

/-- One tick, and what it finds. -/
structure Tick (cfg : Config) where
  now : Rat
  launch : LaunchRead
  /-- `result.json` exists. -/
  resultThere : Bool
  /-- `cancel.json` exists. -/
  cancelThere : Bool
  /-- It exists when `_cancel` looks. -/
  cancelThereAgain : Bool := false
  /-- `_cancel` can write it. -/
  cancelWritten : Bool := true
  /-- The processes and their groups when a group is signalled. -/
  groups : List (Identity × Nat)
  /-- `os.killpg` raises nothing. -/
  groupAccepts : Bool := true
  /-- `/proc`, if it can be listed. -/
  processes : Option (List Process)
  /-- `boot_id()` during the sweep, and when the signals are due. -/
  bootId : String × String
  /-- The shim has a session of its own, which neither of the two can join. -/
  apart : forall m, m ∈ groups -> m.1 = cfg.runner ∨ m.1.pid = cfg.watchdog ->
    m.2 ≠ cfg.shimPgid

/-- The bytes that `tagged_processes` looks for. -/
def needle (jobId : String) : List Char := s!"MIGHTY_JOB_ID={jobId}".toList ++ [Char.ofNat 0]

def Process.tagged (p : Process) (jobId : String) : Bool :=
  p.environ.any fun environ => decide (needle jobId <:+: environ)

def taggedProcesses (cfg : Config) (processes : List Process) (exclude : List Int) :
    List Process :=
  if !cfg.linux || cfg.jobId = "" then []
  else processes.filter fun p =>
    decide ((p.pid : Int) ∉ (cfg.watchdog : Int) :: exclude) && p.tagged cfg.jobId

def taggedIdentities (cfg : Config) (processes : List Process) (exclude : List Int) :
    List Process :=
  (taggedProcesses cfg processes exclude).filter fun p => decide (p.starttime ≠ "")

/-- `alive`, for a process of the sweep. -/
def Process.alive (p : Process) (bootId : String × String) : Bool :=
  decide (0 < p.pid) && bootId.2 = bootId.1 && p.startAgain ≠ "" && p.startAgain = p.starttime

/-- `signal_identities`: those that get the signal. -/
def signalIdentities (identities : List Process) (bootId : String × String) :
    List Identity :=
  (identities.filter fun p => p.alive bootId && p.accepts).map (·.toIdentity)

variable {cfg : Config}

/-- `_signal_escapees`; a failed listing of `/proc` is caught. -/
def signalEscapees (t : Tick cfg) (runnerPid : Int) : List Identity :=
  let exclude := (cfg.watchdog : Int) :: if 0 < runnerPid then [runnerPid] else []
  match t.processes with
  | none => []
  | some processes => signalIdentities (taggedIdentities cfg processes exclude) t.bootId

/-- `_safe_killpg`: those that get the signal. -/
def safeKillpg (t : Tick cfg) : List Identity :=
  if t.groupAccepts then
    (t.groups.filter fun m => m.2 = cfg.shimPgid).map (·.1)
  else []

/-!
## The loop
-/

structure State where
  cancelSent : Bool := false
  killSent : Bool := false
  escalateAt : Option Rat := none
  /-- The processes that it has signalled. -/
  signalled : List Identity := []
  deriving DecidableEq, Repr

def due (s : State) (t : Tick cfg) (deadline : Option PyFloat) : Option Signal :=
  if !s.cancelSent && (t.cancelThere || deadline.any (·.reached t.now)) then some .sigterm
  else if !s.killSent && s.escalateAt.any fun escalateAt => decide (escalateAt ≤ t.now) then
    some .sigkill
  else none

/-- `cancel.json` is there already, or `_cancel` leaves it there. -/
def intentStands (t : Tick cfg) : Bool :=
  t.cancelThere || t.cancelThereAgain || t.cancelWritten

def step (s : State) (t : Tick cfg) : Option State := do
  let identity ← runnerIdentity cfg.texts t.launch
  let deadline ← deadlineValue cfg.texts identity.deadline
  if t.resultThere then none
  else
    let signalled := s.signalled ++ safeKillpg t ++ signalEscapees t identity.pid
    match due s t deadline with
    | none => some s
    | some .sigterm =>
        if intentStands t then
          some { s with
            cancelSent := true, escalateAt := some (t.now + graceSeconds), signalled }
        else none
    | some .sigkill => some { s with killSent := true, signalled }

def machine (cfg : Config) : Machine State (Tick cfg) where
  start s := s = {}
  step := step

/-!
## Who is signalled
-/

theorem mem_safeKillpg {t : Tick cfg} {i : Identity} (h : i ∈ safeKillpg t) :
    exists m, m ∈ t.groups ∧ m.1 = i ∧ m.2 = cfg.shimPgid := by
  unfold safeKillpg at h
  split at h
  · rcases List.mem_map.mp h with ⟨m, hm, hi⟩
    rcases List.mem_filter.mp hm with ⟨hm, hgroup⟩
    exact ⟨m, hm, hi, of_decide_eq_true hgroup⟩
  · cases h

theorem safeKillpg_spares (t : Tick cfg) :
    cfg.runner ∉ safeKillpg t ∧ forall i, i ∈ safeKillpg t -> i.pid ≠ cfg.watchdog := by
  constructor
  · intro h
    rcases mem_safeKillpg h with ⟨m, hm, hi, hgroup⟩
    exact t.apart m hm (Or.inl hi) hgroup
  · intro i h hpid
    rcases mem_safeKillpg h with ⟨m, hm, hi, hgroup⟩
    rw [← hi] at hpid
    exact t.apart m hm (Or.inr hpid) hgroup

/-- Those of the sweep that carry the tag, are who they were, and can be signalled. -/
def Swept (t : Tick cfg) (i : Identity) : Prop :=
  cfg.linux = true ∧ cfg.jobId ≠ "" ∧ i.starttime ≠ "" ∧
    exists processes p, t.processes = some processes ∧ p ∈ processes ∧ p.toIdentity = i ∧
      p.tagged cfg.jobId = true ∧ p.alive t.bootId = true ∧ p.accepts = true

theorem mem_taggedProcesses {processes : List Process} {exclude : List Int} {p : Process} :
    p ∈ taggedProcesses cfg processes exclude <->
      cfg.linux = true ∧ cfg.jobId ≠ "" ∧ p ∈ processes ∧
        (p.pid : Int) ∉ (cfg.watchdog : Int) :: exclude ∧ p.tagged cfg.jobId = true := by
  unfold taggedProcesses
  by_cases hsweep : cfg.linux = true ∧ cfg.jobId ≠ ""
  · have hgo : (!cfg.linux || decide (cfg.jobId = "")) = false := by
      rw [hsweep.1, decide_eq_false hsweep.2]
      rfl
    rw [hgo, if_neg Bool.false_ne_true, List.mem_filter, Bool.and_eq_true, decide_eq_true_eq]
    exact ⟨fun h => ⟨hsweep.1, hsweep.2, h⟩, fun h => h.2.2⟩
  · have hstop : (!cfg.linux || decide (cfg.jobId = "")) = true := by
      cases hlinux : cfg.linux with
      | false => rfl
      | true => exact decide_eq_true (not_not.mp fun h => hsweep ⟨hlinux, h⟩)
    rw [hstop, if_pos rfl]
    exact ⟨fun h => absurd h List.not_mem_nil, fun h => absurd ⟨h.1, h.2.1⟩ hsweep⟩

theorem mem_signalEscapees {t : Tick cfg} {runnerPid : Int} {i : Identity} :
    i ∈ signalEscapees t runnerPid <->
      Swept t i ∧ i.pid ≠ cfg.watchdog ∧ (0 < runnerPid -> (i.pid : Int) ≠ runnerPid) := by
  have hexclude : (i.pid : Int) ∉ (cfg.watchdog : Int) :: (cfg.watchdog : Int) ::
      (if 0 < runnerPid then [runnerPid] else []) <->
        i.pid ≠ cfg.watchdog ∧ (0 < runnerPid -> (i.pid : Int) ≠ runnerPid) := by
    by_cases hpid : 0 < runnerPid
    · simp only [if_pos hpid, List.mem_cons, List.not_mem_nil, or_false, not_or]
      omega
    · simp only [if_neg hpid, List.mem_cons, List.not_mem_nil, or_false]
      omega
  unfold signalEscapees
  cases hprocesses : t.processes with
  | none =>
      constructor
      · intro h
        cases h
      · rintro ⟨⟨_, _, _, processes, _, hsome, _⟩, _⟩
        rw [hprocesses] at hsome
        cases hsome
  | some processes =>
      simp only [signalIdentities, taggedIdentities, List.mem_map, List.mem_filter,
        mem_taggedProcesses, Bool.and_eq_true, decide_eq_true_eq]
      constructor
      · rintro ⟨p, ⟨⟨⟨hlinux, hjob, hmem, hout, htag⟩, hstarted⟩, halive, haccepts⟩, rfl⟩
        exact ⟨⟨hlinux, hjob, hstarted, processes, p, hprocesses, hmem, rfl, htag, halive,
          haccepts⟩, hexclude.mp hout⟩
      · rintro ⟨⟨hlinux, hjob, hstarted, found, p, hfound, hmem, hi, htag, halive, haccepts⟩,
          hout⟩
        rw [hprocesses] at hfound
        cases hfound
        have hout := hexclude.mpr hout
        rw [← hi] at hout hstarted
        exact ⟨p, ⟨⟨⟨hlinux, hjob, hmem, hout, htag⟩, hstarted⟩, halive, haccepts⟩, hi⟩

theorem runner_mem_signalEscapees {t : Tick cfg} {runnerPid : Int} :
    cfg.runner ∈ signalEscapees t runnerPid <->
      Swept t cfg.runner ∧ runnerPid ≠ cfg.runner.pid := by
  rw [mem_signalEscapees]
  constructor
  · rintro ⟨hswept, _, hout⟩
    refine ⟨hswept, fun hpid => ?_⟩
    have hpositive : 0 < runnerPid := by
      rw [hpid]
      exact_mod_cast cfg.runner_pid
    exact hout hpositive hpid.symm
  · rintro ⟨hswept, hpid⟩
    exact ⟨hswept, cfg.distinct, fun _ h => hpid h.symm⟩

/-!
## Runs
-/

/-- Neither the runner nor the watchdog has been signalled. -/
def Spared (cfg : Config) (s : State) : Prop :=
  cfg.runner ∉ s.signalled ∧ forall i, i ∈ s.signalled -> i.pid ≠ cfg.watchdog

/-- A tick that sends a signal, and whose sweep finds the runner, has read the runner's pid
in `launch.json`. -/
def NamesRunner (s : State) (t : Tick cfg) : Prop :=
  forall identity deadline, runnerIdentity cfg.texts t.launch = some identity ->
    deadlineValue cfg.texts identity.deadline = some deadline -> due s t deadline ≠ none ->
      Swept t cfg.runner -> identity.pid = cfg.runner.pid

theorem step_signalled {s next : State} {t : Tick cfg} (h : step s t = some next) :
    exists identity deadline, runnerIdentity cfg.texts t.launch = some identity ∧
      deadlineValue cfg.texts identity.deadline = some deadline ∧
        ((due s t deadline = none ∧ next.signalled = s.signalled) ∨
          (due s t deadline ≠ none ∧
            next.signalled = s.signalled ++ safeKillpg t ++ signalEscapees t identity.pid)) := by
  rcases Option.bind_eq_some_iff.mp h with ⟨identity, hidentity, h⟩
  rcases Option.bind_eq_some_iff.mp h with ⟨deadline, hdeadline, h⟩
  refine ⟨identity, deadline, hidentity, hdeadline, ?_⟩
  split at h
  · cases h
  · cases hdue : due s t deadline with
    | none =>
        rw [hdue] at h
        cases h
        exact Or.inl ⟨rfl, rfl⟩
    | some signal =>
        rw [hdue] at h
        cases signal with
        | sigterm =>
            simp only at h
            split at h
            · cases h
              exact Or.inr ⟨Option.some_ne_none _, rfl⟩
            · cases h
        | sigkill =>
            cases h
            exact Or.inr ⟨Option.some_ne_none _, rfl⟩

theorem step_spares {s next : State} {t : Tick cfg} (h : step s t = some next) :
    Spared cfg next <-> Spared cfg s ∧ NamesRunner s t := by
  rcases step_signalled h with ⟨identity, deadline, hidentity, hdeadline, hnothing | hsent⟩
  · have hnames : NamesRunner s t := by
      intro identity' deadline' hidentity' hdeadline' hdue
      rw [hidentity] at hidentity'
      cases hidentity'
      rw [hdeadline] at hdeadline'
      cases hdeadline'
      exact absurd hnothing.1 hdue
    unfold Spared
    rw [hnothing.2]
    exact ⟨fun h => ⟨h, hnames⟩, And.left⟩
  · have hnames : NamesRunner s t <-> (Swept t cfg.runner -> identity.pid = cfg.runner.pid) := by
      constructor
      · exact fun h => h identity deadline hidentity hdeadline hsent.1
      · intro h identity' deadline' hidentity' _ _
        rw [hidentity] at hidentity'
        cases hidentity'
        exact h
    have hgroup := safeKillpg_spares t
    unfold Spared
    rw [hnames, hsent.2]
    simp only [List.mem_append]
    constructor
    · rintro ⟨hrunner, hwatchdog⟩
      refine ⟨⟨fun h => hrunner (Or.inl (Or.inl h)), fun i h => hwatchdog i (Or.inl (Or.inl h))⟩,
        fun hswept => ?_⟩
      by_contra hpid
      exact hrunner (Or.inr (runner_mem_signalEscapees.mpr ⟨hswept, hpid⟩))
    · rintro ⟨⟨hrunner, hwatchdog⟩, hpid⟩
      constructor
      · rintro ((h | h) | h)
        · exact hrunner h
        · exact hgroup.1 h
        · have hfound := runner_mem_signalEscapees.mp h
          exact hfound.2 (hpid hfound.1)
      · rintro i ((h | h) | h)
        · exact hwatchdog i h
        · exact hgroup.2 i h
        · exact (mem_signalEscapees.mp h).2.1

theorem run_spares : forall {ticks : List (Tick cfg)} {s final : State},
    (machine cfg).exec s ticks = some final ->
      (Spared cfg final <-> Spared cfg s ∧ (machine cfg).Guarded NamesRunner s ticks) := by
  intro ticks
  induction ticks with
  | nil =>
      intro s final h
      cases h
      exact ⟨fun h => ⟨h, trivial⟩, And.left⟩
  | cons t rest ih =>
      intro s final h
      rw [Machine.exec_cons] at h
      cases hnext : (machine cfg).step s t with
      | none =>
          rw [hnext] at h
          cases h
      | some next =>
          rw [hnext] at h
          have hguarded : (machine cfg).Guarded NamesRunner s (t :: rest) <->
              NamesRunner s t ∧ (machine cfg).Guarded NamesRunner next rest := by
            refine and_congr_right fun _ => ⟨fun h => h next hnext, fun h next' hnext' => ?_⟩
            rw [hnext] at hnext'
            cases hnext'
            exact h
          rw [ih h, step_spares hnext, hguarded, and_assoc]

/-- In a run of the watchdog, neither it nor the runner is signalled exactly where each
tick that signals has the runner's pid from `launch.json`, if the runner is there to be
found. -/
theorem spared_iff {ticks : List (Tick cfg)} {s : State}
    (h : (machine cfg).exec {} ticks = some s) :
    Spared cfg s <-> (machine cfg).Guarded NamesRunner {} ticks := by
  have hstart : Spared cfg {} := ⟨List.not_mem_nil, fun i h => absurd h List.not_mem_nil⟩
  rw [run_spares h]
  exact ⟨And.right, fun h => ⟨hstart, h⟩⟩

def threeProcesses : Config where
  texts := ⟨fun _ => none, fun _ => none⟩
  jobId := "job"
  linux := true
  watchdog := 101
  runner := ⟨100, "7000"⟩
  shimPgid := 102
  runner_pid := by decide
  runner_started := by decide
  distinct := by decide

def tickAt (now : Rat) (launch : LaunchRead) (cancelThere : Bool) : Tick threeProcesses where
  now := now
  launch := launch
  resultThere := false
  cancelThere := cancelThere
  groups := [(⟨100, "7000"⟩, 100), (⟨101, "7050"⟩, 101), (⟨102, "7020"⟩, 102)]
  processes :=
    some ([(⟨100, "7000"⟩ : Identity), ⟨101, "7050"⟩, ⟨102, "7020"⟩].map fun i =>
      ⟨i, some (needle "job"), i.starttime, true⟩)
  bootId := ("boot", "boot")
  apart := by decide

/-- `launch.json` as that runner wrote it. -/
def launchRecord : LaunchRead :=
  .ok (.obj [("pid", .int 100), ("starttime", .str "7000"), ("boot_id", .str "boot"),
    ("deadline", .float (some 60) "60.0"), ("started_at", .float (some 0) "0.0")])

/-- The deadline passes, and the workload is killed five seconds later. -/
theorem spared_iff_deadline :
    Spared threeProcesses
        { cancelSent := true, killSent := true, escalateAt := some 66
          signalled := [⟨102, "7020"⟩, ⟨102, "7020"⟩, ⟨102, "7020"⟩, ⟨102, "7020"⟩] } <->
      (machine threeProcesses).Guarded NamesRunner {}
        [tickAt 31 launchRecord false, tickAt 61 launchRecord false,
          tickAt 66 launchRecord true] :=
  spared_iff (by decide +kernel)

/-- A cancel request, with no `launch.json` to be read: the runner gets the signal. -/
theorem runner_signalled :
    ¬forall (cfg : Config) (ticks : List (Tick cfg)) (s : State),
      (machine cfg).exec {} ticks = some s -> Spared cfg s := by
  intro h
  let unreadable : LaunchRead :=
    .error "JSONDecodeError: Expecting value: line 1 column 1 (char 0)"
  have hspared := h threeProcesses [tickAt 31 unreadable true]
    { cancelSent := true, escalateAt := some 36
      signalled := [⟨102, "7020"⟩, ⟨100, "7000"⟩, ⟨102, "7020"⟩] } (by decide +kernel)
  exact hspared.1 (by decide)

end Watchdog
end Job
end MightyColab
