import MightyColab.Job.LaunchArgs
import MightyColab.Job.Planner
import MightyColab.Job.Runner
import MightyColab.Job.Watchdog

/-!
# The wall clock

The budget's way from the spec to the runner's deadline and, through `launch.json`, to
the watchdog's, and what the two of them do to a workload that is still there when it has
passed.
-/

namespace MightyColab
namespace Job

open Lib
open PyLiteral (PyStr codes)
open LaunchArgs (Parsed Vm decimal)
open Watchdog (PyFloat floatLimit)

namespace WallClock

/-!
## The command line
-/

/-- What `_parse_args` makes of the launch's command line, if the runner gets that far. -/
def startedArgs (printable : Nat -> Bool) (spec : JobSpec) (jobId cliVersion : String)
    (vm : Vm) : Option Parsed := do
  let argv ← LaunchArgs.commandLine (LaunchArgs.launchCode printable spec jobId cliVersion) vm
  let argv ← LaunchArgs.passed argv
  (LaunchArgs.parseArgs (LaunchArgs.splitConsumerArgs argv).1 {}).toOption

def readDigits (digits : PyStr) : Nat := digits.foldl (fun n d => 10 * n + (d - 48)) 0

def readDecimal : PyStr -> Int
  | 45 :: digits => -(readDigits digits : Int)
  | digits => readDigits digits

/-- `float(text)` of a decimal text, which is infinite where an integer has no float. -/
def textToFloat (text : PyStr) : PyFloat :=
  let i := readDecimal text
  if i.natAbs < floatLimit then .finite i else if i < 0 then .negInf else .posInf

/-!
## The deadlines
-/

/-- `bool(value)`. -/
def truthy : PyFloat -> Bool
  | .finite q => decide (q ≠ 0)
  | _ => true

/-- `started + value`. -/
def after (started : Rat) : PyFloat -> PyFloat
  | .finite q => .finite (started + q)
  | value => value

/-- The runner's `deadline`. -/
def runnerDeadline (started : Runner.VmTime) (args : Parsed) : Option PyFloat :=
  ((args.deadline.map textToFloat).filter truthy).map (after started.seconds)

/-- A float as `json.load` reads back what `json.dump` has written. -/
def floatJson (text : Rat -> String) : PyFloat -> Json
  | .finite q => .float (some q) (text q)
  | .posInf => .float none "inf"
  | .negInf => .float none "-inf"
  | .nan => .float none "nan"

/-- What the runner knows of itself. -/
structure Self where
  pid : Nat
  pgid : Nat
  starttime : String
  bootId : String
  attempt : Int

/-- `launch.json`. -/
def launchRecord (text : Rat -> String) (self : Self) (started : Runner.VmTime)
    (deadline : Option PyFloat) : Json :=
  .obj
    [("schema_version", .str "1"), ("pid", .int self.pid), ("pgid", .int self.pgid),
      ("starttime", .str self.starttime), ("boot_id", .str self.bootId),
      ("attempt", .int self.attempt),
      ("deadline", Json.optional (deadline.map (floatJson text))),
      ("started_at", started.json)]

def watchdogDeadline (texts : Watchdog.TextNumbers) (launch : Json) :
    Option (Option PyFloat) :=
  (Watchdog.runnerIdentity texts (.ok launch)).bind fun identity =>
    Watchdog.deadlineValue texts identity.deadline

/-!
## Enforcement
-/

variable {cfg : Watchdog.Config}

structure RunnerTick extends Runner.Tick where
  /-- The workload is still there. -/
  alive : Bool
  /-- If the pass ends the loop with an error: the sweep after it signals the workload. -/
  swept : Bool
  waits : alive = true -> toTick.waited = .ok .running ∨ exists e, toTick.waited = .error e

inductive Action (cfg : Watchdog.Config) where
  | runner (t : RunnerTick)
  | watchdog (t : Watchdog.Tick cfg) (alive : Bool)

structure State where
  runner : Runner.Wait := {}
  runnerEnded : Bool := false
  watchdog : Watchdog.State := {}
  watchdogEnded : Bool := false
  /-- The workload has been sent SIGTERM by one of the two. -/
  sigterm : Bool := false
  deriving DecidableEq

/-- A deadline that compares with the clock as this one does, if it is reached at all. -/
def passDeadline (deadline : Option PyFloat) (now : Rat) : Option Rat :=
  match deadline with
  | some (.finite q) => some q
  | some .negInf => some (-(|now| + 1))
  | _ => none

def step (deadline : Option PyFloat) (s : State) : Action cfg -> Option State
  | .runner t =>
      if s.runnerEnded then none
      else
        let pass := Runner.waitPass (passDeadline deadline t.now) t.toTick s.runner
        some { s with
          runner := pass.2
          runnerEnded := pass.1
          sigterm := s.sigterm || pass.2.termSent ||
            (pass.1 && pass.2.runnerError.isSome && t.swept) }
  | .watchdog t _ =>
      if s.watchdogEnded then none
      else
        match Watchdog.step s.watchdog t with
        | none => some { s with watchdogEnded := true }
        | some watchdog =>
            some { s with watchdog, sigterm := s.sigterm || watchdog.cancelSent }

def machine (cfg : Watchdog.Config) (deadline : Option PyFloat) :
    Machine State (Action cfg) where
  start s := s = {}
  step := step deadline

/-!
## What arrives
-/

theorem readDigits_toDigits (n : Nat) :
    readDigits ((Nat.toDigits 10 n).map Char.toNat) = n := by
  have hdigits : Nat.ofDigitChars 10 (Nat.toDigits 10 n) 0 = n :=
    Nat.ofDigitChars_ten_toDigits
  rw [Nat.ofDigitChars_eq_foldl] at hdigits
  unfold readDigits
  rw [List.foldl_map]
  exact hdigits

theorem readDecimal_decimal (i : Int) : readDecimal (decimal i) = i := by
  have hne := LaunchArgs.digits_ne_nil i.natAbs
  have hrange := LaunchArgs.digits_range i.natAbs
  have hread := readDigits_toDigits i.natAbs
  unfold decimal
  generalize (Nat.toDigits 10 i.natAbs).map Char.toNat = digits at hne hrange hread
  by_cases hneg : i < 0
  · rw [if_pos hneg, List.singleton_append, readDecimal, hread]
    omega
  · rw [if_neg hneg, List.nil_append]
    cases digits with
    | nil => exact absurd rfl hne
    | cons first rest =>
        have hfirst : first ≠ 45 := by
          have := hrange first List.mem_cons_self
          omega
        have hdigits : readDecimal (first :: rest) = readDigits (first :: rest) := by
          unfold readDecimal
          split
          · rename_i heq
            injection heq with heq
            exact absurd heq hfirst
          · rfl
        rw [hdigits, hread]
        omega

theorem parseArgs_deadline {argv : List PyStr} (h : codes "--deadline" ∉ argv) :
    forall {p q : Parsed}, LaunchArgs.parseArgs argv p = .ok q -> q.deadline = p.deadline := by
  intro p q
  induction argv, p using LaunchArgs.parseArgs.induct with
  | case1 p =>
      intro hparse
      rw [LaunchArgs.parseArgs] at hparse
      cases hparse
      rfl
  | case2 argv p ih =>
      intro hparse
      rw [LaunchArgs.parseArgs, if_pos rfl] at hparse
      exact ih (fun hmem => h (List.mem_cons_of_mem _ hmem)) hparse
  | case3 text argv p hflag hoption =>
      intro hparse
      rw [LaunchArgs.parseArgs, if_neg hflag, hoption] at hparse
      cases hparse
      rfl
  | case4 text p hflag option hoption =>
      intro hparse
      rw [LaunchArgs.parseArgs, if_neg hflag, hoption] at hparse
      cases hparse
  | case5 text p hflag option hoption value argv hnumber =>
      intro hparse
      rw [LaunchArgs.parseArgs, if_neg hflag, hoption] at hparse
      simp only [hnumber, if_true] at hparse
      cases hparse
  | case6 text p hflag option hoption value argv hnumber ih =>
      intro hparse
      rw [LaunchArgs.parseArgs, if_neg hflag, hoption] at hparse
      simp only [hnumber] at hparse
      have hset : (p.set value option).deadline = p.deadline := by
        have htext : codes option.text = text := by
          have hfound := List.find?_some hoption
          exact of_decide_eq_true hfound
        cases option with
        | deadline => exact absurd (htext ▸ List.mem_cons_self) h
        | _ => rfl
      rw [← hset]
      refine ih (fun hmem => h ?_) hparse
      exact List.mem_cons_of_mem _ (List.mem_cons_of_mem _ hmem)

theorem takeWhile_stop {text : PyStr} {first rest : List PyStr} :
    (first ++ text :: rest).takeWhile (· ≠ text) = first.takeWhile (· ≠ text) := by
  induction first with
  | nil => simp
  | cons head tail ih =>
      rw [List.cons_append, List.takeWhile_cons, List.takeWhile_cons, ih]

theorem value_ne {text : PyStr} (h : text.head? = some 47) : text ≠ codes "--deadline" := by
  intro heq
  rw [heq] at h
  exact absurd h (by decide)

theorem joinPath_head {dir : PyStr} (hdir : dir.head? = some 47) (path : PyStr) :
    (LaunchArgs.joinPath dir path).head? = some 47 := by
  have hhead : forall rest : PyStr, (dir ++ rest).head? = some 47 := by
    intro rest
    cases dir with
    | nil => cases hdir
    | cons c dir => exact hdir
  unfold LaunchArgs.joinPath
  split
  · assumption
  · split
    · exact hhead _
    · exact hhead _

theorem decimal_ne (i : Int) : decimal i ≠ codes "--deadline" := by
  intro heq
  have hdecimal := LaunchArgs.decimal_isDecimal i
  rw [heq] at hdecimal
  exact absurd hdecimal (by decide)

theorem parts_no_deadline {code : LaunchArgs.Code} {vm : Vm} {dir : PyStr}
    (hdir : dir.head? = some 47) : codes "--deadline" ∉ (code.parts vm dir).flatten := by
  intro hmem
  rcases List.mem_flatten.mp hmem with ⟨part, hpart, hin⟩
  simp only [LaunchArgs.Code.parts, List.mem_cons, List.not_mem_nil, or_false] at hpart
  rcases hpart with rfl | rfl | rfl | rfl | rfl
  · cases hfd : vm.secretFd with
    | none =>
        rw [hfd] at hin
        cases hin
    | some fd =>
        rw [hfd] at hin
        rcases List.mem_pair.mp hin with heq | heq
        · exact absurd heq (by decide)
        · exact decimal_ne fd heq.symm
  · split at hin
    · exact absurd (List.mem_singleton.mp hin) (by decide)
    · cases hin
  · split at hin
    · rcases List.mem_pair.mp hin with heq | heq
      · exact absurd heq (by decide)
      · exact value_ne (joinPath_head hdir _) heq.symm
    · cases hin
  · split at hin
    · rcases List.mem_pair.mp hin with heq | heq
      · exact absurd heq (by decide)
      · exact value_ne (joinPath_head hdir _) heq.symm
    · cases hin
  · cases hinterval : code.syncInterval with
    | none =>
        rw [hinterval] at hin
        cases hin
    | some seconds =>
        rw [hinterval] at hin
        rcases List.mem_pair.mp hin with heq | heq
        · exact absurd heq (by decide)
        · exact decimal_ne seconds heq.symm

theorem parse_options {code : LaunchArgs.Code} {vm : Vm} {dir cliVersion entry : PyStr}
    {rest : List PyStr} {args : Parsed} (hdir : dir.head? = some 47)
    (h : LaunchArgs.parseArgs (LaunchArgs.splitConsumerArgs
      (code.options vm dir cliVersion entry ++ codes "--" :: rest)).1 {} = .ok args) :
    args.deadline = some (decimal code.deadline) := by
  have hdirNe : dir ≠ codes "--" := by
    intro heq
    rw [heq] at hdir
    exact absurd hdir (by decide)
  have hdecimal : decimal code.deadline ≠ codes "--" := by
    intro heq
    have hdecimal := LaunchArgs.decimal_isDecimal code.deadline
    rw [heq] at hdecimal
    exact absurd hdecimal (by decide)
  let more := codes "--entry" ::
    LaunchArgs.joinPath (LaunchArgs.joinPath dir (codes "src")) entry ::
      (code.parts vm dir).flatten
  have hoptions : code.options vm dir cliVersion entry =
      [codes "--job-dir", dir, codes "--deadline", decimal code.deadline,
        codes "--cli-version"] ++ cliVersion :: more := LaunchArgs.options_parts code dir _ _
  have hsplit : (LaunchArgs.splitConsumerArgs
      (code.options vm dir cliVersion entry ++ codes "--" :: rest)).1 =
        codes "--job-dir" :: dir :: codes "--deadline" :: decimal code.deadline ::
          codes "--cli-version" :: (cliVersion :: more).takeWhile (· ≠ codes "--") := by
    rw [LaunchArgs.splitConsumerArgs, takeWhile_stop, hoptions]
    have hjob : codes "--job-dir" ≠ codes "--" := by decide
    have hdeadline : codes "--deadline" ≠ codes "--" := by decide
    have hversion : codes "--cli-version" ≠ codes "--" := by decide
    simp only [List.cons_append, List.nil_append, List.takeWhile_cons (a := codes "--job-dir"),
      List.takeWhile_cons, hjob, hdirNe, hdeadline, hdecimal, hversion, ne_eq,
      not_false_eq_true, decide_true, if_true]
  have hjob := LaunchArgs.parseArgs_valued .jobDir dir
  have hdeadline := LaunchArgs.parseArgs_valued .deadline (decimal code.deadline)
  rw [hsplit] at h
  have h := (hjob _ _ (by intro h; cases h)).symm.trans h
  have h := (hdeadline _ _ (fun _ => LaunchArgs.decimal_isDecimal _)).symm.trans h
  by_cases hversion : cliVersion = codes "--"
  · have hstop : (cliVersion :: more).takeWhile (· ≠ codes "--") = [] := by
      rw [hversion]
      rfl
    rw [hstop] at h
    cases h
  · have hgo : (cliVersion :: more).takeWhile (· ≠ codes "--") =
        cliVersion :: more.takeWhile (· ≠ codes "--") := by
      rw [List.takeWhile_cons, if_pos (decide_eq_true hversion)]
    rw [hgo] at h
    have hcli := LaunchArgs.parseArgs_valued .cliVersion cliVersion
    have h := (hcli _ _ (by intro h; cases h)).symm.trans h
    refine parseArgs_deadline (fun hmem => ?_) h
    have hmem := (List.takeWhile_sublist _).mem hmem
    rcases List.mem_cons.mp hmem with heq | hmem
    · exact absurd heq (by decide)
    · rcases List.mem_cons.mp hmem with heq | hmem
      · exact value_ne (joinPath_head (joinPath_head hdir _) _) heq.symm
      · exact parts_no_deadline hdir hmem

variable {printable : Nat -> Bool} {spec : JobSpec} {jobId cliVersion : String} {vm : Vm}

theorem startedArgs_deadline {args : Parsed}
    (h : startedArgs printable spec jobId cliVersion vm = some args) :
    args.deadline = some (decimal spec.budgets.wallClock) := by
  rcases Option.bind_eq_some_iff.mp h with ⟨argv, hcell, h⟩
  rcases Option.bind_eq_some_iff.mp h with ⟨argv', hpassed, hparse⟩
  have hsame := ((LaunchArgs.passed_iff _ _).mp hpassed).2
  rw [← hsame] at hparse
  have hdir : PyLiteral.evalStr
      (LaunchArgs.launchCode printable spec jobId cliVersion).dir =
        some (codes (SpecPaths.remoteDir jobId)) :=
    PyLiteral.evalStr_repr (LaunchArgs.codes_lt _)
  rw [LaunchArgs.commandLine, hdir] at hcell
  rcases Option.bind_eq_some_iff.mp hcell with ⟨dir, heq, hcell⟩
  cases heq
  rcases Option.bind_eq_some_iff.mp hcell with ⟨version, _, hcell⟩
  rcases Option.bind_eq_some_iff.mp hcell with ⟨entry, _, hcell⟩
  rcases Option.bind_eq_some_iff.mp hcell with ⟨rest, _, hcell⟩
  split at hcell
  · cases hcell
  · cases hcell
    have hhead : (codes (SpecPaths.remoteDir jobId)).head? = some 47 := by
      have hempty := LaunchArgs.codes_remoteDir_head jobId ""
      rwa [String.append_empty] at hempty
    cases hparsed : LaunchArgs.parseArgs (LaunchArgs.splitConsumerArgs
        ((LaunchArgs.launchCode printable spec jobId cliVersion).options vm
          (codes (SpecPaths.remoteDir jobId)) version entry ++ codes "--" :: rest)).1 {} with
    | error e =>
        rw [hparsed] at hparse
        cases hparse
    | ok found =>
        rw [hparsed] at hparse
        cases hparse
        exact parse_options hhead hparsed

/-- The budget is neither zero nor beyond the floats. -/
def Usable (wallClock : Int) : Prop := wallClock ≠ 0 ∧ wallClock.natAbs < floatLimit

/-- The runner's deadline is its start plus the budget, exactly where that is usable. -/
theorem runnerDeadline_iff {args : Parsed} (started : Runner.VmTime)
    (h : startedArgs printable spec jobId cliVersion vm = some args) :
    runnerDeadline started args =
        some (.finite (started.seconds + spec.budgets.wallClock)) <->
      Usable spec.budgets.wallClock := by
  unfold runnerDeadline Usable
  rw [startedArgs_deadline h, Option.map_some, textToFloat, readDecimal_decimal]
  by_cases hlimit : spec.budgets.wallClock.natAbs < floatLimit
  · rw [if_pos hlimit]
    by_cases hzero : spec.budgets.wallClock = 0
    · simp [hzero, truthy]
    · have hne : (spec.budgets.wallClock : Rat) ≠ 0 := Int.cast_ne_zero.mpr hzero
      simp [hzero, hlimit, hne, truthy, after]
  · rw [if_neg hlimit]
    by_cases hneg : spec.budgets.wallClock < 0
    · simp [hneg, hlimit, truthy, after]
    · simp [hneg, hlimit, truthy, after]

theorem floatJson_read (texts : Watchdog.TextNumbers) (text : Rat -> String)
    (value : PyFloat) : Watchdog.toFloat texts (floatJson text value) = .value value := by
  cases value <;> rfl

theorem floatJson_isNull (text : Rat -> String) (value : PyFloat) :
    (floatJson text value).isNull = false := by
  cases value <;> rfl

theorem watchdogDeadline_record (texts : Watchdog.TextNumbers) (text : Rat -> String)
    (self : Self) (started : Runner.VmTime) (deadline : Option PyFloat) :
    watchdogDeadline texts (launchRecord text self started deadline) = some deadline := by
  have hread : watchdogDeadline texts (launchRecord text self started deadline) =
      Watchdog.deadlineValue texts (Json.optional (deadline.map (floatJson text))) := rfl
  rw [hread]
  cases deadline with
  | none => rfl
  | some value =>
      change Watchdog.deadlineValue texts (floatJson text value) = _
      rw [Watchdog.deadlineValue, floatJson_isNull, if_neg Bool.false_ne_true, floatJson_read]

/-!
## Late ticks
-/

/-- A tick, of one that still runs, that finds the workload there after the deadline. -/
def Late (deadline : Rat) (s : State) : Action cfg -> Prop
  | .runner t => s.runnerEnded = false ∧ t.alive = true ∧ deadline < t.now
  | .watchdog t alive => s.watchdogEnded = false ∧ alive = true ∧ deadline < t.now

/-- After a late tick the workload has been sent SIGTERM. -/
def Signals (deadline : Rat) (held : Option PyFloat) (s : State) (a : Action cfg) : Prop :=
  Late deadline s a -> forall next, step held s a = some next -> next.sigterm = true

/-- The runner's pass gets as far as its signal, or its sweep makes up for it. -/
def RunnerAble (deadline : Rat) (t : RunnerTick) : Prop :=
  match t.waited with
  | .error _ => t.swept = true
  | .ok _ =>
      t.cancelRequested = true ∨ (deadline ≠ 0 ∧ t.cancelWrite = none) ∨
        (t.swept = true ∧ (deadline ≠ 0 ∨ t.rest.isSome = true))

/-- The watchdog finds no result, a deadline in `launch.json` that has passed, and can leave
the intent behind. -/
def WatchdogAble (t : Watchdog.Tick cfg) : Prop :=
  t.resultThere = false ∧ Watchdog.intentStands t = true ∧
    exists identity deadline,
      Watchdog.runnerIdentity cfg.texts t.launch = some identity ∧
        Watchdog.deadlineValue cfg.texts identity.deadline = some deadline ∧
          (t.cancelThere = true ∨ deadline.any (·.reached t.now) = true)

/-- Nothing is in the way of a late tick that is the first to signal. -/
def Unhindered (deadline : Rat) (s : State) (a : Action cfg) : Prop :=
  Late deadline s a -> s.sigterm = false ->
    match a with
    | .runner t => RunnerAble deadline t
    | .watchdog t _ => WatchdogAble t

structure Remembered (s : State) : Prop where
  runner : s.runner.termSent = true -> s.sigterm = true
  watchdog : s.watchdog.cancelSent = true -> s.sigterm = true

theorem step_sigterm {deadline : Option PyFloat} {s next : State} {a : Action cfg}
    (h : step deadline s a = some next) :
    (exists t, a = .runner t ∧ next.watchdog = s.watchdog ∧
      next.runner = (Runner.waitPass (passDeadline deadline t.now) t.toTick s.runner).2 ∧
      next.sigterm = (s.sigterm || next.runner.termSent ||
        ((Runner.waitPass (passDeadline deadline t.now) t.toTick s.runner).1 &&
          next.runner.runnerError.isSome && t.swept))) ∨
    (exists t alive, a = .watchdog t alive ∧ next.runner = s.runner ∧
      ((Watchdog.step s.watchdog t = none ∧ next.watchdog = s.watchdog ∧
          next.sigterm = s.sigterm) ∨
        (Watchdog.step s.watchdog t = some next.watchdog ∧
          next.sigterm = (s.sigterm || next.watchdog.cancelSent)))) := by
  cases a with
  | runner t =>
      rw [step] at h
      split at h
      · cases h
      · cases h
        exact Or.inl ⟨t, rfl, rfl, rfl, rfl⟩
  | watchdog t alive =>
      rw [step] at h
      split at h
      · cases h
      · cases hwatch : Watchdog.step s.watchdog t with
        | none =>
            rw [hwatch] at h
            cases h
            exact Or.inr ⟨t, alive, rfl, rfl, Or.inl ⟨hwatch, rfl, rfl⟩⟩
        | some watchdog =>
            rw [hwatch] at h
            cases h
            exact Or.inr ⟨t, alive, rfl, rfl, Or.inr ⟨hwatch, rfl⟩⟩

theorem remembered_preserved (cfg : Watchdog.Config) (deadline : Option PyFloat) :
    (machine cfg deadline).Preserved Machine.Free Remembered := by
  intro s a next hs _ hstep
  rcases step_sigterm hstep with ⟨t, _, hwatchdog, _, hsigterm⟩ |
    ⟨t, alive, _, hrunner, ⟨_, hwatchdog, hsigterm⟩ | ⟨_, hsigterm⟩⟩
  · constructor
    · intro h
      rw [hsigterm, h, Bool.or_true, Bool.true_or]
    · intro h
      rw [hwatchdog] at h
      rw [hsigterm, hs.watchdog h, Bool.true_or, Bool.true_or]
  · constructor
    · intro h
      rw [hrunner] at h
      rw [hsigterm, hs.runner h]
    · intro h
      rw [hwatchdog] at h
      rw [hsigterm, hs.watchdog h]
  · constructor
    · intro h
      rw [hrunner] at h
      rw [hsigterm, hs.runner h, Bool.true_or]
    · intro h
      rw [hsigterm, h, Bool.or_true]

theorem step_mono {deadline : Option PyFloat} {s next : State} {a : Action cfg}
    (h : step deadline s a = some next) (hs : s.sigterm = true) : next.sigterm = true := by
  rcases step_sigterm h with ⟨_, _, _, _, hsigterm⟩ |
    ⟨_, _, _, _, ⟨_, _, hsigterm⟩ | ⟨_, hsigterm⟩⟩
  · rw [hsigterm, hs, Bool.true_or, Bool.true_or]
  · rw [hsigterm, hs]
  · rw [hsigterm, hs, Bool.true_or]

theorem waitPass_signals {deadline : Rat} {t : RunnerTick} {w : Runner.Wait}
    (hlate : deadline < t.now) (halive : t.alive = true) (hunsent : w.termSent = false) :
    ((Runner.waitPass (some deadline) t.toTick w).2.termSent ||
      ((Runner.waitPass (some deadline) t.toTick w).1 &&
        (Runner.waitPass (some deadline) t.toTick w).2.runnerError.isSome && t.swept)) = true <->
      RunnerAble deadline t := by
  unfold RunnerAble
  rcases t.waits halive with hrunning | ⟨e, herror⟩
  · -- Whether the pass signals is up to the request, the deadline and its two writes.
    have hpass : Runner.waitPass (some deadline) t.toTick w =
        Runner.waitPass (some deadline)
          ⟨.ok .running, t.now, t.cancelRequested, t.cancelWrite, t.rest⟩ w := by
      rw [← hrunning]
    rw [hpass, hrunning]
    cases hrequest : t.cancelRequested <;> cases hwrite : t.cancelWrite <;>
      cases hrest : t.rest <;> by_cases hzero : deadline = 0 <;>
        simp [Runner.waitPass, hunsent, hlate, hzero, Option.filter]
  · rw [herror]
    simp [Runner.waitPass, herror, hunsent]

theorem watchdog_signals {s : Watchdog.State} {t : Watchdog.Tick cfg}
    (hunsent : s.cancelSent = false) :
    (exists next, Watchdog.step s t = some next ∧ next.cancelSent = true) <->
      WatchdogAble t := by
  have hdue : forall deadline, Watchdog.due s t deadline = some .sigterm <->
      (t.cancelThere = true ∨ deadline.any (·.reached t.now) = true) := by
    intro deadline
    rw [Watchdog.due, hunsent, Bool.not_false, Bool.true_and]
    by_cases h : (t.cancelThere || deadline.any (·.reached t.now)) = true
    · rw [if_pos h]
      exact ⟨fun _ => Bool.or_eq_true _ _ ▸ h, fun _ => rfl⟩
    · rw [if_neg h]
      refine ⟨fun hkill => ?_, fun hreached => absurd (Bool.or_eq_true _ _ ▸ hreached) h⟩
      split at hkill <;> cases hkill
  constructor
  · rintro ⟨next, hstep, hsent⟩
    rcases Option.bind_eq_some_iff.mp hstep with ⟨identity, hidentity, hstep⟩
    rcases Option.bind_eq_some_iff.mp hstep with ⟨deadline, hdeadline, hstep⟩
    split at hstep
    · cases hstep
    · rename_i hresult
      have hresult : t.resultThere = false := Bool.eq_false_iff.mpr hresult
      cases hsignal : Watchdog.due s t deadline with
      | none =>
          rw [hsignal] at hstep
          cases hstep
          rw [hunsent] at hsent
          cases hsent
      | some signal =>
          rw [hsignal] at hstep
          cases signal with
          | sigterm =>
              simp only at hstep
              split at hstep
              · rename_i hstands
                exact ⟨hresult, hstands, identity, deadline, hidentity, hdeadline,
                  (hdue deadline).mp hsignal⟩
              · cases hstep
          | sigkill =>
              cases hstep
              rw [hunsent] at hsent
              cases hsent
  · rintro ⟨hresult, hstands, identity, deadline, hidentity, hdeadline, hreached⟩
    have hsignal := (hdue deadline).mpr hreached
    have hstep : Watchdog.step s t = some { s with
        cancelSent := true, escalateAt := some (t.now + graceSeconds)
        signalled := s.signalled ++ Watchdog.safeKillpg t ++
          Watchdog.signalEscapees t identity.pid } := by
      unfold Watchdog.step
      rw [hidentity, Option.bind_eq_bind, Option.bind_some, hdeadline, Option.bind_eq_bind,
        Option.bind_some, hresult, if_neg Bool.false_ne_true, hsignal]
      simp only [hstands, if_true]
    exact ⟨_, hstep, rfl⟩

/-- For a finite deadline that both hold, a tick does what is asked of it exactly where
nothing is in its way. -/
theorem signals_iff {deadline : Rat} {s : State} {a : Action cfg} (hs : Remembered s) :
    Signals deadline (some (.finite deadline)) s a <-> Unhindered deadline s a := by
  cases hsent : s.sigterm with
  | true =>
      refine ⟨fun _ _ h => ?_, fun _ _ next hstep => step_mono hstep hsent⟩
      rw [hsent] at h
      cases h
  | false =>
      have hrunner : s.runner.termSent = false := by
        by_contra h
        have := hs.runner (Bool.not_eq_false _ ▸ h)
        rw [hsent] at this
        cases this
      have hwatchdog : s.watchdog.cancelSent = false := by
        by_contra h
        have := hs.watchdog (Bool.not_eq_false _ ▸ h)
        rw [hsent] at this
        cases this
      unfold Signals Unhindered
      refine forall_congr' fun hlate => ?_
      cases a with
      | runner t =>
          have hpass := waitPass_signals hlate.2.2 hlate.2.1 hrunner
          simp only [hsent, true_implies]
          rw [← hpass, step, hlate.1, if_neg Bool.false_ne_true]
          simp only [Option.some.injEq, forall_eq', hsent, Bool.false_or, passDeadline]
      | watchdog t alive =>
          have htick := @watchdog_signals _ _ t hwatchdog
          simp only [hsent, true_implies]
          rw [← htick, step, hlate.1, if_neg Bool.false_ne_true]
          cases hwatch : Watchdog.step s.watchdog t with
          | none => simp [hsent]
          | some watchdog => simp [hsent]

/-!
## The budget is enforced
-/

/-- Both hold the deadline start plus budget, and each late tick of the run, the first one
too, leaves the workload signalled. -/
def Enforced (cfg : Watchdog.Config) (text : Rat -> String) (self : Self)
    (started : Runner.VmTime) (args : Parsed) (wallClock : Int)
    (actions : List (Action cfg)) : Prop :=
  let deadline := started.seconds + wallClock
  let held := runnerDeadline started args
  held = some (.finite deadline) ∧
    watchdogDeadline cfg.texts (launchRecord text self started held) =
      some (some (.finite deadline)) ∧
    (machine cfg held).Guarded (Signals deadline held) {} actions

/-- A launched spec's wall clock is enforced exactly where it is usable and nothing is in the
way of the tick that has to signal. -/
theorem enforced_iff (cfg : Watchdog.Config) (text : Rat -> String) (self : Self)
    (started : Runner.VmTime) (args : Parsed) (actions : List (Action cfg))
    (h : startedArgs printable spec jobId cliVersion vm = some args) :
    Enforced cfg text self started args spec.budgets.wallClock actions <->
      Usable spec.budgets.wallClock ∧
        (machine cfg (runnerDeadline started args)).Guarded
          (Unhindered (started.seconds + spec.budgets.wallClock)) {} actions := by
  have hheld := runnerDeadline_iff started h
  have hstart : Remembered {} := ⟨id, id⟩
  unfold Enforced
  simp only
  rw [← hheld]
  refine and_congr_right fun hdeadline => ?_
  let deadline := started.seconds + spec.budgets.wallClock
  have hread := watchdogDeadline_record cfg.texts text self started (some (.finite deadline))
  have hguard : (machine cfg (some (.finite deadline))).Guarded
      (Signals deadline (some (.finite deadline))) {} actions <->
        (machine cfg (some (.finite deadline))).Guarded (Unhindered deadline) {} actions :=
    Machine.guarded_congr (remembered_preserved cfg (some (.finite deadline)))
      (fun _ _ hs => signals_iff hs) hstart
  rw [hdeadline, hguard]
  exact ⟨And.right, fun h => ⟨hread, h⟩⟩

/-- A spec of one file with this budget, and what `job plan` finds for it. -/
def scriptWithin (wallClock : Int) : JobSpec where
  name := "n"
  code := { entry := "main.py" }
  budgets := { wallClock }

def scriptWorld : Planner.World where
  casefold := fun s => String.ofList (s.toList.map Char.toLower)
  urlId := id
  specHash := fun _ => "sha256:00"
  now := 1000
  isoformat := fun _ => "1970-01-01T00:16:40+00:00"
  expiry := fun _ => none
  urls := []
  controlUrls := []
  codeRoot := "/work"
  entryEscapes := false
  entryIsFile := true
  probe := ([], [])
  source := fun _ => ([⟨"main.py", 10, "00"⟩], [])

def launchVm : Vm where
  secretFd := none
  stageManifest := true
  offloadManifest := true

def launchTime : Runner.VmTime := .sample

def lateTick : RunnerTick where
  waited := .ok .running
  now := 4601
  cancelRequested := false
  alive := true
  swept := false
  waits := fun _ => Or.inl rfl

theorem enforced_hour : exists args,
    startedArgs (fun _ => true) (scriptWithin 3600) "j" "0.5.0" launchVm = some args ∧
      Enforced Watchdog.threeProcesses toString ⟨100, 100, "7000", "boot", 1⟩ launchTime args
        3600 [.runner lateTick] := by
  have hstarted : (startedArgs (fun _ => true) (scriptWithin 3600) "j" "0.5.0"
      launchVm).isSome = true := by decide +kernel
  rcases Option.isSome_iff_exists.mp hstarted with ⟨args, hargs⟩
  have hiff := enforced_iff Watchdog.threeProcesses toString ⟨100, 100, "7000", "boot", 1⟩
    launchTime args [.runner lateTick] hargs
  have hhour : ((1000 : Rat) + (3600 : Int) ≠ 0) := by norm_num
  exact ⟨args, hargs, hiff.mpr ⟨⟨by decide, by decide +kernel⟩,
    fun _ _ => Or.inr (Or.inl ⟨hhour, rfl⟩), fun _ _ => trivial⟩⟩

/-- A budget of zero is accepted, and gives neither of the two a deadline. -/
theorem wall_clock_zero :
    ¬forall (w : Planner.World) (spec : JobSpec) (jobId : String) (path : Option String)
      (plan : Plan), Planner.buildPlan w spec jobId path = some plan ->
        SpecPaths.Accepted plan.diagnostics ->
        forall (printable : Nat -> Bool) (cliVersion : String) (vm : Vm) (args : Parsed)
          (cfg : Watchdog.Config) (text : Rat -> String) (self : Self)
          (started : Runner.VmTime) (actions : List (Action cfg)),
          startedArgs printable plan.spec jobId cliVersion vm = some args ->
            Enforced cfg text self started args plan.spec.budgets.wallClock actions := by
  intro h
  have hplan : (Planner.buildPlan scriptWorld (scriptWithin 0) "j" none).any
      (fun plan => decide (SpecPaths.Accepted plan.diagnostics ∧
        plan.spec = scriptWithin 0)) = true := by decide +kernel
  rcases (Option.any_eq_true _ _).mp hplan with ⟨plan, hbuilt, hplan⟩
  rcases of_decide_eq_true hplan with ⟨haccepted, hspec⟩
  have hstarted : (startedArgs (fun _ => true) (scriptWithin 0) "j" "0.5.0"
      launchVm).isSome = true := by decide +kernel
  rcases Option.isSome_iff_exists.mp hstarted with ⟨args, hargs⟩
  have henforced := h scriptWorld (scriptWithin 0) "j" none plan hbuilt haccepted
    (fun _ => true) "0.5.0" launchVm args Watchdog.threeProcesses toString
    ⟨100, 100, "7000", "boot", 1⟩ launchTime [] (hspec ▸ hargs)
  rw [hspec] at henforced
  have husable := (runnerDeadline_iff launchTime hargs).mp henforced.1
  exact husable.1 rfl

end WallClock
end Job
end MightyColab
