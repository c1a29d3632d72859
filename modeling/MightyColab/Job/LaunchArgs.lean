import MightyColab.Lib.PyLiteral
import MightyColab.Job.Orchestrator
import MightyColab.Job.SpecPaths

/-!
# The arguments of a launch

The source text that `Orchestrator.launch` runs on the VM carries the job's directory, its
entry and its arguments as literals. Here they are written, evaluated into the runner's
command line, passed to its process, and parsed by the runner.
-/

namespace MightyColab
namespace Job

open Lib
open PyLiteral (PyStr codes)

namespace LaunchArgs

/-!
## The source text
-/

structure Code where
  dir : PyStr
  deadline : Int
  cliVersion : PyStr
  entry : PyStr
  secretsRequired : Bool
  syncInterval : Option Int
  args : PyStr

/-- What `launch` writes; `printable` is `str.isprintable` of a character beyond ASCII. -/
def launchCode (printable : Nat -> Bool) (spec : JobSpec) (jobId cliVersion : String) :
    Code where
  dir := PyLiteral.repr printable (codes (SpecPaths.remoteDir jobId))
  deadline := spec.budgets.wallClock
  cliVersion := PyLiteral.repr printable (codes cliVersion)
  entry := PyLiteral.repr printable (codes spec.code.entry)
  secretsRequired := Apply.secretsRequired spec
  syncInterval := spec.budgets.artifactSyncIntervalSeconds
  args := PyLiteral.jsonList (spec.code.args.map codes)

/-!
## The launch cell
-/

/-- What the cell finds on the VM. -/
structure Vm where
  /-- The descriptor that the credential file is opened with, if it is there. -/
  secretFd : Option Int
  stageManifest : Bool
  offloadManifest : Bool

/-- `str` of an integer. -/
def decimal (i : Int) : PyStr :=
  (if i < 0 then [45] else []) ++ (Nat.toDigits 10 i.natAbs).map Char.toNat

/-- `os.path.join`. -/
def joinPath (dir path : PyStr) : PyStr :=
  if path.head? = some 47 then path
  else if dir = [] ∨ dir.getLast? = some 47 then dir ++ path
  else dir ++ 47 :: path

def Code.options (code : Code) (vm : Vm) (dir cliVersion entry : PyStr) : List PyStr :=
  [codes "--job-dir", dir, codes "--deadline", decimal code.deadline,
    codes "--cli-version", cliVersion,
    codes "--entry", joinPath (joinPath dir (codes "src")) entry] ++
  ((match vm.secretFd with
    | some fd => [codes "--secrets-fd", decimal fd]
    | none => []) ++
  ((if code.secretsRequired then [codes "--secrets-required"] else []) ++
  ((if vm.stageManifest then
      [codes "--stage-manifest", joinPath dir (codes "stage.manifest.json")] else []) ++
  ((if vm.offloadManifest then
      [codes "--offload-manifest", joinPath dir (codes "offload.manifest.json")] else []) ++
  (match code.syncInterval with
    | some seconds => [codes "--artifact-sync-interval", decimal seconds]
    | none => [])))))

def commandLine (code : Code) (vm : Vm) : Option (List PyStr) := do
  let dir ← PyLiteral.evalStr code.dir
  let cliVersion ← PyLiteral.evalStr code.cliVersion
  let entry ← PyLiteral.evalStr code.entry
  let args ← PyLiteral.evalList code.args
  if code.secretsRequired && vm.secretFd.isNone then none
  else return code.options vm dir cliVersion entry ++ codes "--" :: args

/-- A code point that an argument of a process may have: not NUL, and no surrogate but
those that stand for a byte. -/
def passable (n : Nat) : Bool :=
  n ≠ 0 && !(decide (0xd800 ≤ n) && decide (n < 0xdc80)) &&
    !(decide (0xdd00 ≤ n) && decide (n < 0xe000))

/-- `subprocess.Popen`, which encodes every argument. -/
def passed (argv : List PyStr) : Option (List PyStr) :=
  if argv.all fun text => text.all passable then some argv else none

/-!
## The runner
-/

def splitConsumerArgs (argv : List PyStr) : List PyStr × List PyStr :=
  (argv.takeWhile (· ≠ codes "--"), (argv.dropWhile (· ≠ codes "--")).tail)

/-- What `_parse_args` returns; a number is kept as its text. -/
structure Parsed where
  jobDir : Option PyStr := none
  deadline : Option PyStr := none
  cliVersion : PyStr := codes "unknown"
  secretsFd : Option PyStr := none
  secretsRequired : Bool := false
  stageManifest : Option PyStr := none
  offloadManifest : Option PyStr := none
  syncInterval : Option PyStr := none
  entry : Option PyStr := none
  rest : List PyStr := []

/-- The text of an integer, which `int` and `float` take. -/
def isDecimal (text : PyStr) : Bool :=
  let digits := if text.head? = some 45 then text.tail else text
  !digits.isEmpty && digits.all fun c => decide (48 ≤ c) && decide (c ≤ 57)

/-- The options with a value, in the order in which `_parse_args` tries them. -/
inductive Valued where
  | jobDir | deadline | cliVersion | secretsFd | entry | stageManifest | offloadManifest
  | syncInterval
  deriving DecidableEq, Repr

def Valued.text : Valued -> String
  | .jobDir => "--job-dir"
  | .deadline => "--deadline"
  | .cliVersion => "--cli-version"
  | .secretsFd => "--secrets-fd"
  | .entry => "--entry"
  | .stageManifest => "--stage-manifest"
  | .offloadManifest => "--offload-manifest"
  | .syncInterval => "--artifact-sync-interval"

def Valued.numeric : Valued -> Bool
  | .deadline | .secretsFd | .syncInterval => true
  | _ => false

def Valued.all : List Valued :=
  [.jobDir, .deadline, .cliVersion, .secretsFd, .entry, .stageManifest, .offloadManifest,
    .syncInterval]

def Valued.ofText? (text : PyStr) : Option Valued :=
  Valued.all.find? fun option => codes option.text = text

def Parsed.set (p : Parsed) (value : PyStr) : Valued -> Parsed
  | .jobDir => { p with jobDir := some value }
  | .deadline => { p with deadline := some value }
  | .cliVersion => { p with cliVersion := value }
  | .secretsFd => { p with secretsFd := some value }
  | .entry => { p with entry := some value }
  | .stageManifest => { p with stageManifest := some value }
  | .offloadManifest => { p with offloadManifest := some value }
  | .syncInterval => { p with syncInterval := some value }

/-- `[entry_option] if entry_option else []`. -/
def Parsed.entryOption (p : Parsed) : List PyStr :=
  (p.entry.filter (· ≠ [])).toList

def parseArgs : List PyStr -> Parsed -> Except String Parsed
  | [], p => .ok { p with rest := p.entryOption }
  | text :: argv, p =>
      if text = codes "--secrets-required" then
        parseArgs argv { p with secretsRequired := true }
      else
        match Valued.ofText? text with
        | none => .ok { p with rest := p.entryOption ++ text :: argv }
        | some option =>
            match argv with
            | [] => .error s!"{option.text} requires a value"
            | value :: argv =>
                if option.numeric && !isDecimal value then
                  .error s!"{option.text} expects a number"
                else parseArgs argv (p.set value option)

/-- What `main` runs: the entry and the consumer's arguments. -/
def runnerMain (argv : List PyStr) : Option (PyStr × List PyStr) :=
  let parts := splitConsumerArgs argv
  match parseArgs parts.1 {} with
  | .error _ => none
  | .ok p =>
      match p.jobDir, p.rest with
      | some dir, entry :: args => if dir = [] then none else some (entry, args ++ parts.2)
      | _, _ => none

def launched (printable : Nat -> Bool) (spec : JobSpec) (jobId cliVersion : String)
    (vm : Vm) : Option (PyStr × List PyStr) := do
  let argv ← commandLine (launchCode printable spec jobId cliVersion) vm
  runnerMain (← passed argv)

/-!
## Code points
-/

variable {printable : Nat -> Bool} {spec : JobSpec} {jobId cliVersion text : String} {vm : Vm}

def NoNul (text : String) : Prop := Char.ofNat 0 ∉ text.toList

theorem codes_lt (text : String) : forall n, n ∈ codes text -> n < PyLiteral.codeLimit := by
  intro n hn
  rcases List.mem_map.mp hn with ⟨c, _, rfl⟩
  have hvalid := c.valid
  unfold PyLiteral.codeLimit
  rcases hvalid with hlow | ⟨_, hhigh⟩
  · exact Nat.lt_of_lt_of_le hlow (by decide)
  · exact hhigh

theorem passable_char {c : Char} (h : c ≠ Char.ofNat 0) : passable c.toNat = true := by
  have hzero : c.toNat ≠ 0 := by
    intro heq
    apply h
    rw [← Char.ofNat_toNat c, heq]
  have hscalar : c.toNat < 0xd800 ∨ 0xdfff < c.toNat := by
    rcases c.valid with hlow | ⟨hhigh, _⟩
    · exact Or.inl hlow
    · exact Or.inr hhigh
  simp only [passable, ne_eq, hzero, not_false_eq_true, decide_true, Bool.true_and,
    Bool.and_eq_true, Bool.not_eq_true', Bool.and_eq_false_iff, decide_eq_false_iff_not,
    Nat.not_le, Nat.not_lt]
  omega

theorem codes_passable (h : NoNul text) : (codes text).all passable = true := by
  refine List.all_eq_true.mpr fun n hn => ?_
  rcases List.mem_map.mp hn with ⟨c, hc, rfl⟩
  exact passable_char fun heq => h (heq ▸ hc)

theorem units_passable_iff (h : NoNul text) :
    ((codes text).flatMap PyLiteral.units).all passable = true <->
      forall n, n ∈ codes text -> n < 0x10000 := by
  constructor
  · intro hall n hn
    by_contra hlarge
    have hlimit := codes_lt text n hn
    unfold PyLiteral.codeLimit at hlimit
    have hhigh : 0xd800 + (n - 0x10000) / 1024 ∈ (codes text).flatMap PyLiteral.units := by
      refine List.mem_flatMap.mpr ⟨n, hn, ?_⟩
      rw [PyLiteral.units, if_neg hlarge]
      exact List.mem_cons_self
    have hpass := List.all_eq_true.mp hall _ hhigh
    simp only [passable, Bool.and_eq_true, Bool.not_eq_true', Bool.and_eq_false_iff,
      decide_eq_false_iff_not, Nat.not_le, Nat.not_lt] at hpass
    omega
  · intro hsmall
    rw [(PyLiteral.flatMap_units_iff _).mpr hsmall]
    exact codes_passable h

theorem isDigit_range {c : Char} (h : c.isDigit = true) : 48 ≤ c.toNat ∧ c.toNat ≤ 57 := by
  simp only [Char.isDigit, Bool.and_eq_true, decide_eq_true_eq] at h
  exact ⟨UInt32.le_iff_toNat_le.mp h.1, UInt32.le_iff_toNat_le.mp h.2⟩

theorem digits_range (n : Nat) :
    forall c, c ∈ (Nat.toDigits 10 n).map Char.toNat -> 48 ≤ c ∧ c ≤ 57 := by
  intro c hc
  rcases List.mem_map.mp hc with ⟨d, hd, rfl⟩
  exact isDigit_range (Nat.isDigit_of_mem_toDigits (by decide) (by decide) hd)

theorem digits_ne_nil (n : Nat) : (Nat.toDigits 10 n).map Char.toNat ≠ [] := by
  intro h
  exact Nat.toDigits_ne_nil (List.map_eq_nil_iff.mp h)

theorem decimal_isDecimal (i : Int) : isDecimal (decimal i) = true := by
  have hne := digits_ne_nil i.natAbs
  have hrange := digits_range i.natAbs
  unfold decimal
  generalize (Nat.toDigits 10 i.natAbs).map Char.toNat = digits at hne hrange
  have hall : (digits.all fun c => decide (48 ≤ c) && decide (c ≤ 57)) = true := by
    refine List.all_eq_true.mpr ?_
    intro c hc
    simp [hrange c hc]
  cases digits with
  | nil => exact absurd rfl hne
  | cons first rest =>
      by_cases hneg : i < 0
      · simp only [hneg, if_true, isDecimal, List.singleton_append, List.head?_cons,
          List.tail_cons, List.isEmpty_cons, Bool.not_false, Bool.true_and]
        exact hall
      · have hfirst : first ≠ 45 := by
          have := hrange first List.mem_cons_self
          omega
        simp only [hneg, if_false, isDecimal, List.nil_append, List.head?_cons,
          Option.some.injEq, hfirst, List.isEmpty_cons, Bool.not_false, Bool.true_and]
        exact hall

/-!
## What the runner parses
-/

/-- An argument that reaches the runner and is not the separator. -/
structure Safe (text : PyStr) : Prop where
  ne : text ≠ codes "--"
  passable : text.all passable = true

theorem safe_decimal (i : Int) : Safe (decimal i) where
  ne := by
    intro heq
    have hdecimal := decimal_isDecimal i
    rw [heq] at hdecimal
    exact absurd hdecimal (by decide)
  passable := by
    refine List.all_eq_true.mpr ?_
    intro c hc
    rcases List.mem_append.mp hc with hsign | hdigit
    · split at hsign
      · rw [List.mem_singleton.mp hsign]
        decide
      · cases hsign
    · have hrange := digits_range i.natAbs c hdigit
      simp only [LaunchArgs.passable, ne_eq, Bool.and_eq_true, decide_eq_true_eq,
        Bool.not_eq_true', Bool.and_eq_false_iff, decide_eq_false_iff_not]
      omega

theorem safe_text (option : Valued) : Safe (codes option.text) := by
  cases option <;> exact ⟨by decide, by decide⟩

theorem safe_absolute {path : PyStr} (hhead : path.head? = some 47)
    (hpassable : path.all passable = true) : Safe path where
  ne := by
    intro heq
    rw [heq] at hhead
    exact absurd hhead (by decide)
  passable := hpassable

theorem ofText_text (option : Valued) : Valued.ofText? (codes option.text) = some option := by
  cases option <;> decide

theorem text_ne_flag (option : Valued) : codes option.text ≠ codes "--secrets-required" := by
  cases option <;> decide

theorem parseArgs_valued (option : Valued) (value : PyStr) (argv : List PyStr) (p : Parsed)
    (h : option.numeric = true -> isDecimal value = true) :
    parseArgs (codes option.text :: value :: argv) p = parseArgs argv (p.set value option) := by
  have hnumber : (option.numeric && !isDecimal value) = false := by
    cases hnumeric : option.numeric with
    | false => rfl
    | true => simp [h hnumeric]
  rw [parseArgs, if_neg (text_ne_flag option), ofText_text]
  simp [hnumber]

inductive Optional : List PyStr -> Prop where
  | absent : Optional []
  | flag : Optional [codes "--secrets-required"]
  | valued (option : Valued) (value : PyStr) (hother : option ≠ .jobDir ∧ option ≠ .entry)
      (hnumber : option.numeric = true -> isDecimal value = true) (hsafe : Safe value) :
      Optional [codes option.text, value]

theorem Optional.safe {part : List PyStr} (h : Optional part) :
    forall text, text ∈ part -> Safe text := by
  intro text htext
  cases h with
  | absent => cases htext
  | flag =>
      rw [List.mem_singleton.mp htext]
      exact ⟨by decide, by decide⟩
  | valued option value hother hnumber hsafe =>
      rcases List.mem_cons.mp htext with rfl | htext
      · exact safe_text option
      · rw [List.mem_singleton.mp htext]
        exact hsafe

theorem Optional.parsed {part : List PyStr} (h : Optional part) (argv : List PyStr)
    (p : Parsed) : exists q, parseArgs (part ++ argv) p = parseArgs argv q ∧
      q.jobDir = p.jobDir ∧ q.entry = p.entry := by
  cases h with
  | absent => exact ⟨p, rfl, rfl, rfl⟩
  | flag =>
      refine ⟨{ p with secretsRequired := true }, ?_, rfl, rfl⟩
      rw [List.singleton_append, parseArgs, if_pos rfl]
  | valued option value hother hnumber hsafe =>
      refine ⟨p.set value option, parseArgs_valued option value argv p hnumber, ?_, ?_⟩
      · cases option <;> first | rfl | exact absurd rfl hother.1
      · cases option <;> first | rfl | exact absurd rfl hother.2

theorem Optional.ite {b : Bool} {part : List PyStr} (h : Optional part) :
    Optional (if b then part else []) := by
  cases b with
  | false => exact .absent
  | true => exact h

theorem splitConsumerArgs_append {options args : List PyStr}
    (h : forall text, text ∈ options -> Safe text) :
    splitConsumerArgs (options ++ codes "--" :: args) = (options, args) := by
  have hne : forall text, text ∈ options -> decide (text ≠ codes "--") = true := by
    intro text htext
    exact decide_eq_true (h text htext).ne
  unfold splitConsumerArgs
  rw [List.takeWhile_append_of_pos hne, List.dropWhile_append_of_pos hne]
  simp

theorem toNat_eq_slash {c : Char} : c.toNat = 47 <-> c = '/' := by
  constructor
  · intro h
    rw [← Char.ofNat_toNat c, h]
  · intro h
    rw [h]
    decide

theorem codes_append (first second : String) :
    codes (first ++ second) = codes first ++ codes second := by
  simp [codes]

theorem joinPath_codes {dir path : String} (hdir : dir.toList.getLast? ≠ some '/')
    (hne : dir ≠ "") (hpath : Path.isAbs path = false) :
    joinPath (codes dir) (codes path) = codes (dir ++ "/" ++ path) := by
  have hhead : (codes path).head? ≠ some 47 := by
    intro heq
    rw [codes, List.head?_map, Option.map_eq_some_iff] at heq
    rcases heq with ⟨c, hc, hslash⟩
    rw [toNat_eq_slash.mp hslash] at hc
    simp [Path.isAbs, hc] at hpath
  have hlast : (codes dir).getLast? ≠ some 47 := by
    intro heq
    rw [codes, List.getLast?_map, Option.map_eq_some_iff] at heq
    rcases heq with ⟨c, hc, hslash⟩
    rw [toNat_eq_slash.mp hslash] at hc
    exact hdir hc
  have hempty : codes dir ≠ [] := by
    intro heq
    exact hne (String.toList_eq_nil_iff.mp (List.map_eq_nil_iff.mp heq))
  rw [joinPath, if_neg hhead, if_neg (by tauto), codes_append, codes_append,
    List.append_assoc]
  rfl

theorem NoNul.append {first second : String} (hfirst : NoNul first) (hsecond : NoNul second) :
    NoNul (first ++ second) := by
  intro hmem
  rw [String.toList_append] at hmem
  rcases List.mem_append.mp hmem with h | h
  · exact hfirst h
  · exact hsecond h

instance (text : String) : Decidable (NoNul text) :=
  inferInstanceAs (Decidable (Char.ofNat 0 ∉ text.toList))

theorem remoteDir_last (hid : Path.Segment jobId) :
    (SpecPaths.remoteDir jobId).toList.getLast? ≠ some '/' := by
  intro hlast
  have hne : jobId.toList ≠ [] := fun h => hid.1 (String.toList_eq_nil_iff.mp h)
  have hdir : SpecPaths.remoteDir jobId = "/content/jobs/" ++ jobId := rfl
  rw [hdir, String.toList_append, List.getLast?_append_of_ne_nil _ hne] at hlast
  exact hid.2.2.2 (List.mem_of_getLast? hlast)

theorem codes_remoteDir_head (jobId rest : String) :
    (codes (SpecPaths.remoteDir jobId ++ rest)).head? = some 47 := by
  have hdir : SpecPaths.remoteDir jobId = "/" ++ ("content/jobs/" ++ jobId) := by
    rw [← String.append_assoc]
    rfl
  rw [hdir, codes_append, codes_append]
  rfl

theorem safe_below (hid : NoNul jobId) {rest : String} (hrest : NoNul rest) :
    Safe (codes (SpecPaths.remoteDir jobId ++ rest)) := by
  have hdir : NoNul (SpecPaths.remoteDir jobId) :=
    @NoNul.append "/content/jobs/" jobId (by decide) hid
  exact safe_absolute (codes_remoteDir_head jobId rest) (codes_passable (hdir.append hrest))

def Code.parts (code : Code) (vm : Vm) (dir : PyStr) : List (List PyStr) :=
  [match vm.secretFd with
    | some fd => [codes "--secrets-fd", decimal fd]
    | none => [],
  if code.secretsRequired then [codes "--secrets-required"] else [],
  if vm.stageManifest then
    [codes "--stage-manifest", joinPath dir (codes "stage.manifest.json")] else [],
  if vm.offloadManifest then
    [codes "--offload-manifest", joinPath dir (codes "offload.manifest.json")] else [],
  match code.syncInterval with
    | some seconds => [codes "--artifact-sync-interval", decimal seconds]
    | none => []]

theorem options_parts (code : Code) (dir cliVersion entry : PyStr) :
    code.options vm dir cliVersion entry =
      [codes "--job-dir", dir, codes "--deadline", decimal code.deadline,
        codes "--cli-version", cliVersion,
        codes "--entry", joinPath (joinPath dir (codes "src")) entry] ++
      (code.parts vm dir).flatten := by
  simp [Code.options, Code.parts]

theorem Optional.number {option : Valued} (hother : option ≠ .jobDir ∧ option ≠ .entry)
    (i : Int) : Optional [codes option.text, decimal i] :=
  .valued option _ hother (fun _ => decimal_isDecimal i) (safe_decimal i)

theorem Optional.manifest {option : Valued} (hid : Path.Segment jobId) (hnul : NoNul jobId)
    (hother : option ≠ .jobDir ∧ option ≠ .entry) (htext : option.numeric = false)
    {name : String} (hname : NoNul name) (hrel : Path.isAbs name = false) :
    Optional [codes option.text,
      joinPath (codes (SpecPaths.remoteDir jobId)) (codes name)] := by
  have hne : SpecPaths.remoteDir jobId ≠ "" := by
    intro heq
    have hhead := codes_remoteDir_head jobId ""
    rw [heq] at hhead
    exact absurd hhead (by decide)
  rw [joinPath_codes (remoteDir_last hid) hne hrel, String.append_assoc]
  have hrest : NoNul ("/" ++ name) := @NoNul.append "/" name (by decide) hname
  exact .valued option _ hother (by simp [htext]) (safe_below hnul hrest)

theorem parts_optional (hid : Path.Segment jobId) (hnul : NoNul jobId) (code : Code) :
    forall part, part ∈ code.parts vm (codes (SpecPaths.remoteDir jobId)) ->
      Optional part := by
  have hfd : Optional (match vm.secretFd with
      | some fd => [codes "--secrets-fd", decimal fd]
      | none => []) := by
    cases vm.secretFd with
    | none => exact .absent
    | some fd => exact @Optional.number .secretsFd (by decide) fd
  have hinterval : Optional (match code.syncInterval with
      | some seconds => [codes "--artifact-sync-interval", decimal seconds]
      | none => []) := by
    cases code.syncInterval with
    | none => exact .absent
    | some seconds => exact @Optional.number .syncInterval (by decide) seconds
  have hstage := @Optional.manifest jobId .stageManifest hid hnul (by decide) rfl
    "stage.manifest.json" (by decide) (by decide)
  have hoffload := @Optional.manifest jobId .offloadManifest hid hnul (by decide) rfl
    "offload.manifest.json" (by decide) (by decide)
  intro part hpart
  simp only [Code.parts, List.mem_cons, List.not_mem_nil, or_false] at hpart
  rcases hpart with rfl | rfl | rfl | rfl | rfl
  · exact hfd
  · exact Optional.flag.ite
  · exact hstage.ite
  · exact hoffload.ite
  · exact hinterval

theorem parseArgs_parts {parts : List (List PyStr)}
    (h : forall part, part ∈ parts -> Optional part) (p : Parsed) :
    exists q : Parsed, parseArgs parts.flatten p = .ok { q with rest := q.entryOption } ∧
      q.jobDir = p.jobDir ∧ q.entry = p.entry := by
  induction parts generalizing p with
  | nil => exact ⟨p, by rw [List.flatten_nil, parseArgs], rfl, rfl⟩
  | cons part rest ih =>
      rcases (h part List.mem_cons_self).parsed rest.flatten p with ⟨q, hq, hdir, hentry⟩
      rcases ih (fun p hp => h p (List.mem_cons_of_mem _ hp)) q with
        ⟨r, hr, hrdir, hrentry⟩
      rw [List.flatten_cons, hq]
      exact ⟨r, hr, hrdir.trans hdir, hrentry.trans hentry⟩

theorem runnerMain_options {code : Code} {dir cliVersion entry : PyStr} {args : List PyStr}
    (hsafe : forall text, text ∈ code.options vm dir cliVersion entry -> Safe text)
    (hparts : forall part, part ∈ code.parts vm dir -> Optional part) (hdir : dir ≠ [])
    (hentry : joinPath (joinPath dir (codes "src")) entry ≠ []) :
    runnerMain (code.options vm dir cliVersion entry ++ codes "--" :: args) =
      some (joinPath (joinPath dir (codes "src")) entry, args) := by
  have hsplit := @splitConsumerArgs_append _ args hsafe
  let fixed : Parsed :=
    ((((({} : Parsed).set dir .jobDir).set (decimal code.deadline) .deadline).set
      cliVersion .cliVersion).set (joinPath (joinPath dir (codes "src")) entry) .entry)
  have hfixed : parseArgs (code.options vm dir cliVersion entry) {} =
      parseArgs (code.parts vm dir).flatten fixed := by
    rw [options_parts]
    exact (parseArgs_valued .jobDir _ _ _ (by intro h; cases h)).trans <|
      (parseArgs_valued .deadline _ _ _ (fun _ => decimal_isDecimal _)).trans <|
      (parseArgs_valued .cliVersion _ _ _ (by intro h; cases h)).trans <|
      parseArgs_valued .entry _ _ _ (by intro h; cases h)
  rcases parseArgs_parts hparts fixed with ⟨q, hq, hqdir, hqentry⟩
  have hparsed := hfixed.trans hq
  have hrest : q.entryOption = [joinPath (joinPath dir (codes "src")) entry] := by
    rw [Parsed.entryOption, hqentry]
    simp [fixed, Parsed.set, Option.filter, hentry]
  have hjobDir : q.jobDir = some dir := hqdir
  simp only [runnerMain, hsplit, hparsed, hjobDir, hrest, hdir, if_false, List.nil_append]

/-!
## The round trip
-/

theorem launchCode_evaluated (printable : Nat -> Bool) (jobId cliVersion : String)
    (hsecret : Apply.secretsRequired spec = true -> vm.secretFd.isSome = true) :
    commandLine (launchCode printable spec jobId cliVersion) vm =
      some ((launchCode printable spec jobId cliVersion).options vm
          (codes (SpecPaths.remoteDir jobId)) (codes cliVersion) (codes spec.code.entry) ++
        codes "--" :: spec.code.args.map fun text => (codes text).flatMap PyLiteral.units) := by
  have hdir : PyLiteral.evalStr (launchCode printable spec jobId cliVersion).dir =
      some (codes (SpecPaths.remoteDir jobId)) := PyLiteral.evalStr_repr (codes_lt _)
  have hversion : PyLiteral.evalStr (launchCode printable spec jobId cliVersion).cliVersion =
      some (codes cliVersion) := PyLiteral.evalStr_repr (codes_lt _)
  have hentry : PyLiteral.evalStr (launchCode printable spec jobId cliVersion).entry =
      some (codes spec.code.entry) := PyLiteral.evalStr_repr (codes_lt _)
  have hargs : PyLiteral.evalList (launchCode printable spec jobId cliVersion).args =
      some ((spec.code.args.map codes).map fun text => text.flatMap PyLiteral.units) := by
    refine PyLiteral.evalList_jsonList _ ?_
    intro text htext
    rcases List.mem_map.mp htext with ⟨arg, _, rfl⟩
    exact codes_lt arg
  have hfile : ((launchCode printable spec jobId cliVersion).secretsRequired &&
      vm.secretFd.isNone) = false := by
    cases hrequired : Apply.secretsRequired spec with
    | false => simp [launchCode, hrequired]
    | true =>
        have hsome := hsecret hrequired
        cases hfd : vm.secretFd with
        | none => simp [hfd] at hsome
        | some fd => simp
  simp only [commandLine, hdir, hversion, hentry, hargs, hfile, List.map_map,
    Option.bind_eq_bind, Option.bind_some, Bool.false_eq_true, if_false]
  rfl

theorem codes_injective : Function.Injective codes := by
  intro first second heq
  have hinjective : Function.Injective Char.toNat := by
    intro c d hcd
    rw [← Char.ofNat_toNat c, hcd, Char.ofNat_toNat]
  exact String.toList_inj.mp (List.map_injective_iff.mpr hinjective heq)

theorem passed_iff (argv : List PyStr) (result : List PyStr) :
    passed argv = some result <->
      (forall text, text ∈ argv -> text.all passable = true) ∧ argv = result := by
  unfold passed
  rw [Option.ite_none_right_eq_some, List.all_eq_true, Option.some.injEq]

theorem units_passed_iff {args : List String} (hnul : forall arg, arg ∈ args -> NoNul arg) :
    (forall text, text ∈ args.map (fun arg => (codes arg).flatMap PyLiteral.units) ->
        text.all passable = true) <->
      forall arg, arg ∈ args -> forall c, c ∈ arg.toList -> c.toNat < 0x10000 := by
  constructor
  · intro hall arg harg c hc
    have hpassed := hall _ (List.mem_map_of_mem harg)
    exact (units_passable_iff (hnul arg harg)).mp hpassed _ (List.mem_map_of_mem hc)
  · intro hsmall text htext
    rcases List.mem_map.mp htext with ⟨arg, harg, rfl⟩
    refine (units_passable_iff (hnul arg harg)).mpr ?_
    intro n hn
    rcases List.mem_map.mp hn with ⟨c, hc, rfl⟩
    exact hsmall arg harg c hc

theorem map_units {args : List String}
    (h : forall arg, arg ∈ args -> forall c, c ∈ arg.toList -> c.toNat < 0x10000) :
    args.map (fun arg => (codes arg).flatMap PyLiteral.units) = args.map codes := by
  refine List.map_congr_left ?_
  intro arg harg
  refine (PyLiteral.flatMap_units_iff _).mpr ?_
  intro n hn
  rcases List.mem_map.mp hn with ⟨c, hc, rfl⟩
  exact h arg harg c hc

theorem safe_version (hnul : NoNul cliVersion) (h : cliVersion ≠ "--") :
    Safe (codes cliVersion) where
  ne := fun heq => h (codes_injective heq)
  passable := codes_passable hnul

theorem codes_below_ne_nil (jobId rest : String) :
    codes (SpecPaths.remoteDir jobId ++ rest) ≠ [] := by
  intro heq
  have hhead := codes_remoteDir_head jobId rest
  rw [heq] at hhead
  exact absurd hhead (by decide)

theorem joinPath_entry (hid : Path.Segment jobId) {entry : String}
    (hentry : Path.isAbs entry = false) :
    joinPath (joinPath (codes (SpecPaths.remoteDir jobId)) (codes "src")) (codes entry) =
      codes (SpecPaths.remoteDir jobId ++ "/src/" ++ entry) := by
  have hdir : SpecPaths.remoteDir jobId ≠ "" := by
    intro heq
    apply codes_below_ne_nil jobId ""
    rw [heq]
    rfl
  have hsrc : SpecPaths.remoteDir jobId ++ "/" ++ "src" ≠ "" := by
    intro heq
    apply codes_below_ne_nil jobId ("/" ++ "src")
    rw [← String.append_assoc, heq]
    rfl
  have hlast : (SpecPaths.remoteDir jobId ++ "/" ++ "src").toList.getLast? ≠ some '/' := by
    rw [String.toList_append, List.getLast?_append_of_ne_nil _ (by decide)]
    decide
  have hslash : SpecPaths.remoteDir jobId ++ "/" ++ "src" ++ "/" ++ entry =
      SpecPaths.remoteDir jobId ++ "/src/" ++ entry := by
    simp only [String.append_assoc]
    rfl
  rw [joinPath_codes (remoteDir_last hid) hdir (by decide),
    joinPath_codes hlast hsrc hentry, hslash]

/-- The runner runs the entry under the job's `src` with the arguments of the spec exactly
when all their characters are in the first plane. -/
theorem launched_iff (printable : Nat -> Bool) (spec : JobSpec) (jobId cliVersion : String)
    (vm : Vm) (hid : Path.Segment jobId) (hidNul : NoNul jobId)
    (hversion : cliVersion ≠ "--") (hversionNul : NoNul cliVersion)
    (hentry : Path.isAbs spec.code.entry = false) (hentryNul : NoNul spec.code.entry)
    (hargsNul : forall arg, arg ∈ spec.code.args -> NoNul arg)
    (hsecret : Apply.secretsRequired spec = true -> vm.secretFd.isSome = true) :
    launched printable spec jobId cliVersion vm =
        some (codes (SpecPaths.remoteDir jobId ++ "/src/" ++ spec.code.entry),
          spec.code.args.map codes) <->
      forall arg, arg ∈ spec.code.args ->
        forall c, c ∈ arg.toList -> c.toNat < 0x10000 := by
  let code := launchCode printable spec jobId cliVersion
  let dir := codes (SpecPaths.remoteDir jobId)
  have hcell := launchCode_evaluated printable jobId cliVersion hsecret
  have hparts : forall part, part ∈ code.parts vm dir -> Optional part :=
    parts_optional hid hidNul code
  have hpath : joinPath (joinPath dir (codes "src")) (codes spec.code.entry) =
      codes (SpecPaths.remoteDir jobId ++ "/src/" ++ spec.code.entry) :=
    joinPath_entry hid hentry
  have hdir : Safe dir := by
    have hempty := @safe_below jobId hidNul "" (by decide)
    rwa [String.append_empty] at hempty
  have hdirNe : dir ≠ [] := by
    have hempty := codes_below_ne_nil jobId ""
    rwa [String.append_empty] at hempty
  have hoptions : forall text,
      text ∈ code.options vm dir (codes cliVersion) (codes spec.code.entry) -> Safe text := by
    intro text htext
    rw [options_parts, hpath] at htext
    rcases List.mem_append.mp htext with hfixed | hmore
    · simp only [List.mem_cons, List.not_mem_nil, or_false] at hfixed
      rcases hfixed with rfl | rfl | rfl | rfl | rfl | rfl | rfl | rfl
      · exact safe_text .jobDir
      · exact hdir
      · exact safe_text .deadline
      · exact safe_decimal _
      · exact safe_text .cliVersion
      · exact safe_version hversionNul hversion
      · exact safe_text .entry
      · rw [String.append_assoc]
        exact safe_below hidNul (@NoNul.append "/src/" _ (by decide) hentryNul)
    · rcases List.mem_flatten.mp hmore with ⟨part, hpart, hin⟩
      exact (hparts part hpart).safe text hin
  have hpathNe :
      joinPath (joinPath dir (codes "src")) (codes spec.code.entry) ≠ [] := by
    rw [hpath, String.append_assoc]
    exact codes_below_ne_nil jobId _
  have hmain := fun args => @runnerMain_options vm code dir (codes cliVersion)
    (codes spec.code.entry) args hoptions hparts hdirNe hpathNe
  have hall : (forall text, text ∈
      code.options vm dir (codes cliVersion) (codes spec.code.entry) ++ codes "--" ::
        spec.code.args.map (fun arg => (codes arg).flatMap PyLiteral.units) ->
        text.all passable = true) <->
      forall arg, arg ∈ spec.code.args ->
        forall c, c ∈ arg.toList -> c.toNat < 0x10000 := by
    rw [← units_passed_iff hargsNul]
    constructor
    · intro h text htext
      exact h text (List.mem_append_right _ (List.mem_cons_of_mem _ htext))
    · intro h text htext
      rcases List.mem_append.mp htext with hoption | hrest
      · exact (hoptions text hoption).passable
      · rcases List.mem_cons.mp hrest with rfl | harg
        · decide
        · exact h text harg
  rw [launched, hcell, Option.bind_eq_bind, Option.bind_some]
  constructor
  · intro hrun
    rcases Option.bind_eq_some_iff.mp hrun with ⟨argv, hpassed, _⟩
    exact hall.mp ((passed_iff _ _).mp hpassed).1
  · intro hsmall
    have hpassed := (passed_iff _ _).mpr ⟨hall.mpr hsmall, rfl⟩
    rw [Option.bind_eq_some_iff]
    refine ⟨_, hpassed, ?_⟩
    rw [hmain, hpath, map_units hsmall]

theorem launched_iff_plain :
    launched (fun _ => true)
        { name := "n", code := { entry := "main.py", args := ["--", "it's", "", "é"] } }
        "j" "0.1.0" { secretFd := none, stageManifest := true, offloadManifest := false } =
      some (codes "/content/jobs/j/src/main.py", ["--", "it's", "", "é"].map codes) :=
  (launched_iff (fun _ => true)
    { name := "n", code := { entry := "main.py", args := ["--", "it's", "", "é"] } }
    "j" "0.1.0" { secretFd := none, stageManifest := true, offloadManifest := false }
    (by decide) (by decide) (by decide) (by decide) (by decide) (by decide) (by decide)
    (by decide)).mpr (by
      have hall : ["--", "it's", "", "é"].all (fun arg =>
          arg.toList.all fun c => decide (c.toNat < 0x10000)) = true := by decide
      simpa only [List.all_eq_true, decide_eq_true_eq] using hall)

/-- A character beyond the first plane: the launch fails. -/
theorem launched_not_emoji :
    launched (fun _ => true) { name := "n", code := { entry := "main.py", args := ["😀"] } }
        "j" "0.1.0" { secretFd := none, stageManifest := false, offloadManifest := false } ≠
      some (codes "/content/jobs/j/src/main.py", ["😀"].map codes) := by
  decide

end LaunchArgs
end Job
end MightyColab
