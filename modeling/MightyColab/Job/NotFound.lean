import MightyColab.Job.TransportPasses
import MightyColab.Lib.Runs

/-!
# NOT_FOUND means absent

Runs of operations on one transport, in any order and with any time between them.
A read answers NOT_FOUND either because it has just refreshed its token, or because
the refresh stamp says that a token was obtained a short time ago. The second is
right as long as every stamp is backed by a token that young.
-/

namespace MightyColab
namespace Job

open Lib

namespace Transport

variable {w : World} {cfg : Config} {s s' : State}

/-!
## One read

A NOT_FOUND is the 404 that the call's last request was answered with. Either the
path was absent, or the token had expired although the call had refreshed it.
-/

/-- The last request of the call was a GET of the path, answered while it was
absent. -/
def AbsentAtLastAnswer (w : World) (path : String) (s : State) : Prop :=
  exists time expired older,
    s.log = .answer .get path time expired :: older ∧ w.file path time = none

/-- A GET was answered by a 404 for its expired token although the call had
refreshed it before, and although the file was there. -/
def ExpiredAfterRefresh (w : World) (path : String) (log : List Event) : Prop :=
  exists newer code status older time,
    log = newer ++ .refresh code status :: older ∧
    .answer .get path time true ∈ newer ∧ w.file path time ≠ none

theorem ExpiredAfterRefresh.of_cons {path : String} {e : Event} {log : List Event}
    (h : ExpiredAfterRefresh w path (e :: log)) :
    (exists time, e = .answer .get path time true) ∨ ExpiredAfterRefresh w path log := by
  rcases h with ⟨newer, code, status, older, time, heq, hmem, hfile⟩
  cases newer with
  | nil => cases hmem
  | cons x newer =>
      injection heq with hx hlog
      rcases List.mem_cons.mp hmem with hmem | hmem
      · exact Or.inl ⟨time, by rw [hx, hmem]⟩
      · exact Or.inr ⟨newer, code, status, older, time, hlog, hmem, hfile⟩

theorem not_expiredAfterRefresh_single {path : String} {e : Event} :
    ¬ExpiredAfterRefresh w path [e] := by
  rintro ⟨newer, code, status, older, time, heq, hmem, _⟩
  cases newer with
  | nil => cases hmem
  | cons x newer => simp at heq

variable (w cfg) in
theorem read_spec (path : String) (s : State) :
    Advances w s (read w cfg path s).2 ∧
      (Backed cfg s -> Backed cfg (read w cfg path s).2 ∧
        ((read w cfg path s).1.2 = .notFound ->
          AbsentAtLastAnswer w path (read w cfg path s).2 ∨
            ExpiredAfterRefresh w path (read w cfg path s).2.log)) := by
  refine (readAttempt w cfg path).loop.run_rule
    (fun b t => Advances w s t ∧ (Backed cfg s -> Backed cfg t) ∧
      (b.refreshAttempted = true ->
        exists newer code status older, t.log = newer ++ .refresh code status :: older))
    (fun r t => Advances w s t ∧ (Backed cfg s -> Backed cfg t ∧
      (r.2 = .notFound -> AbsentAtLastAnswer w path t ∨
        ExpiredAfterRefresh w path t.log)))
    ?_ ?_ Budget.start s ⟨Advances.refl w s, id, by simp [Budget.start]⟩
  · intro b t next t' hinv hpass
    rcases hinv with ⟨hadv, hbacked, hrefreshed⟩
    rcases readAttempt_cases hpass with
      ⟨next', more, hturn, hpasses, hflag, hlog'⟩ |
      ⟨next', code, older, _, hadv', hlog', hfresh, hstamp⟩ |
      ⟨_, _, _, hturn, _⟩ | ⟨_, _, hturn, _⟩
    · cases hturn
      refine ⟨hadv.trans hpasses.toAdvances, fun hs => (hbacked hs).of_passes hpasses, ?_⟩
      intro hflagged
      rw [hflag] at hflagged
      rcases hrefreshed hflagged with ⟨newer, code, status, older, holder⟩
      exact ⟨more ++ newer, code, status, older, by rw [hlog', holder, List.append_assoc]⟩
    · refine ⟨hadv.trans hadv', fun hs => ?_, fun _ => ⟨[], code, .ok, older, hlog'⟩⟩
      refine (hbacked hs).of_fresh hfresh hadv'.clock ?_
      intro stamp hs'
      rcases hstamp with hold | hnew
      · exact Or.inl (by rw [← hold, hs'])
      · right
        rw [hnew] at hs'
        have : t'.clock = stamp := by simpa using hs'
        omega
    · cases hturn
    · cases hturn
  · intro b t value t' hinv hpass
    rcases hinv with ⟨hadv, hbacked, hrefreshed⟩
    rcases readAttempt_cases hpass with
      ⟨_, _, hturn, _⟩ | ⟨_, _, _, hturn, _⟩ |
      ⟨_, time, expired, hturn, hpasses, hlog', hle, hexpired, habsent, hwhy⟩ |
      ⟨_, status, hturn, hpasses, hne⟩
    · cases hturn
    · cases hturn
    · refine ⟨hadv.trans hpasses.toAdvances, fun hs => ?_⟩
      have hafter := (hbacked hs).of_passes hpasses
      refine ⟨hafter, fun _ => ?_⟩
      by_cases hfile : w.file path time = none
      · exact Or.inl ⟨time, expired, _, hlog', hfile⟩
      · have htrue : expired = true := by
          by_contra hne
          exact hfile (habsent (by simpa using hne))
        rcases hwhy with hflag | hskip
        · right
          rcases hrefreshed hflag with ⟨newer, code, status, older, holder⟩
          refine ⟨.answer .get path time expired :: newer, code, status, older, time, ?_,
            by simp [htrue], hfile⟩
          rw [hlog', holder]
          rfl
        · -- the stamp is young, so the token behind it was still accepted
          exfalso
          have hexp := hexpired htrue
          have htoken := hpasses.token
          unfold shouldRefresh404 at hskip
          cases hstamp : t'.last404RefreshAt with
          | none => simp [hstamp] at hskip
          | some stamp =>
              have hlive := hafter stamp hstamp
              simp only [hstamp, decide_eq_false_iff_not] at hskip
              omega
    · cases hturn
      exact ⟨hadv.trans hpasses.toAdvances, fun hs =>
        ⟨(hbacked hs).of_passes hpasses, fun h => absurd h hne⟩⟩

/-!
## Operations and runs
-/

/-- One call on the transport, or time between calls. -/
inductive Op where
  | wait (ticks : Nat)
  | readJson (path : String)
  | readText (path : String)
  /-- `write_json` and `write_text`, with the text they come to. -/
  | write (path payload : String)
  | upload (size : Nat) (path : String)
  | makedirs (dir : String)
  | remove (path : String)
  deriving DecidableEq, Repr

def Op.reads : Op -> Option String
  | .readJson path | .readText path => some path
  | _ => none

def Op.stampsBefore : Op -> Bool
  | .write _ _ | .upload _ _ => true
  | _ => false

def perform (w : Server) (cfg : Config) (s : State) : Op -> Option ReadStatus × State
  | .wait ticks => (none, { s.begin_ with clock := s.clock + ticks })
  | .readJson path =>
      match readJson w cfg path s.begin_ with
      | ((_, status), s) => (some status, s)
  | .readText path =>
      match readText w cfg path s.begin_ with
      | ((_, status), s) => (some status, s)
  | .write path payload => (none, (write w cfg path payload s.begin_).2)
  | .upload size path => (none, (upload w cfg size path s.begin_).2)
  | .makedirs dir => (none, (makedirs w cfg dir s.begin_).2)
  | .remove path => (none, (remove w cfg path s.begin_).2)

/-- The transport and what its last call, if it was a read, returned. -/
structure Run where
  transport : State
  last : Option (String × ReadStatus)

def Run.next (w : Server) (cfg : Config) (r : Run) (op : Op) : Run :=
  let result := perform w cfg r.transport op
  { transport := result.2
    last := op.reads.bind fun path => result.1.map fun status => (path, status) }

/-- Any operations on one transport, from its construction. -/
def machine (w : Server) (cfg : Config) : Machine Run Op where
  start := fun r =>
    r.last = none ∧ exists clock tokenExpiry session,
      r.transport = State.fresh clock tokenExpiry session
  step := fun r op => some (r.next w cfg op)

/-!
## What each call keeps
-/

variable (w cfg) in
theorem readJson_spec (path : String) (s : State) :
    Advances w s (readJson w cfg path s).2 ∧
      (Backed cfg s -> Backed cfg (readJson w cfg path s).2 ∧
        ((readJson w cfg path s).1.2 = .notFound ->
          AbsentAtLastAnswer w path (readJson w cfg path s).2 ∨
            ExpiredAfterRefresh w path (readJson w cfg path s).2.log)) := by
  have hread := read_spec w cfg path s
  unfold readJson
  rcases hr : read w cfg path s with ⟨⟨value, status⟩, s1⟩
  rw [hr] at hread
  have hproblem : forall text, Advances w s (s1.problem text) ∧
      (Backed cfg s -> Backed cfg (s1.problem text)) := fun text =>
    ⟨hread.left.trans (problem_passes w s1 text).toAdvances,
      fun hs => (hread.right hs).left.of_passes (problem_passes w s1 text)⟩
  cases status with
  | ok =>
      cases value with
      | obj fields => simpa using hread
      | str text =>
          cases hloads : w.server.loads text with
          | error error => simpa [hloads] using hproblem _
          | ok decoded =>
              cases decoded with
              | obj fields => simpa [hloads] using hread
              | _ => simpa [hloads] using hproblem _
      | _ => simpa using hproblem _
  | _ => simpa using hread

variable (w cfg) in
theorem readText_spec (path : String) (s : State) :
    Advances w s (readText w cfg path s).2 ∧
      (Backed cfg s -> Backed cfg (readText w cfg path s).2 ∧
        ((readText w cfg path s).1.2 = .notFound ->
          AbsentAtLastAnswer w path (readText w cfg path s).2 ∨
            ExpiredAfterRefresh w path (readText w cfg path s).2.log)) := by
  have hread := read_spec w cfg path s
  unfold readText
  rcases hr : read w cfg path s with ⟨⟨value, status⟩, s1⟩
  rw [hr] at hread
  cases status <;> simpa using hread

variable (w cfg) in
theorem remove_keeps (path : String) (s : State) :
    Advances w s (remove w cfg path s).2 ∧
      (Backed cfg s -> Backed cfg (remove w cfg path s).2) := by
  have hdelete := Attempts.run_keepsStamp (deleteAttempt w cfg path)
    (fun _ _ _ _ h => (deleteAttempt_spec h).left) s
  have hconfirm := fun s1 => Attempts.run_keepsStamp (confirmAttempt w cfg path)
    (fun _ _ _ _ h => (confirmAttempt_spec h).left) s1
  simp only [Bool.false_eq_true, false_and, or_false] at hdelete hconfirm
  unfold remove
  rcases hd : (deleteAttempt w cfg path).run s with ⟨result, s1⟩
  rw [hd] at hdelete
  cases result with
  | some status => exact hdelete
  | none =>
      have hc := hconfirm s1
      exact ⟨hdelete.left.trans hc.left, fun hs => hc.right (hdelete.right hs)⟩

theorem begin_passes (w : World) (s : State) : Passes w s s.begin_ :=
  ⟨⟨Nat.le_refl _, id⟩, rfl, rfl⟩

variable (w cfg) in
theorem perform_spec (op : Op) (s : State) :
    Advances w s (perform w cfg s op).2 ∧
      (Backed cfg s ->
        Backed cfg (perform w cfg s op).2 ∨
          (op.stampsBefore = true ∧ exists status older, status ≠ .ok ∧
            (perform w cfg s op).2.log = .refresh (some 404) status :: older)) ∧
      (Backed cfg s -> forall path, op.reads = some path ->
        (perform w cfg s op).1 = some .notFound ->
          AbsentAtLastAnswer w path (perform w cfg s op).2 ∨
            ExpiredAfterRefresh w path (perform w cfg s op).2.log) := by
  have hbegin := begin_passes w s
  have hbacked : Backed cfg s -> Backed cfg s.begin_ := fun hs => hs.of_passes hbegin
  cases op with
  | wait ticks =>
      have hwait : Passes w s { s.begin_ with clock := s.clock + ticks } :=
        ⟨⟨Nat.le_add_right _ _, fun h hp => (h hp).mono (Nat.le_add_right _ _)⟩, rfl, rfl⟩
      exact ⟨hwait.toAdvances, fun hs => Or.inl (hs.of_passes hwait), by simp [Op.reads]⟩
  | readJson path =>
      have hread := readJson_spec w cfg path s.begin_
      refine ⟨hbegin.toAdvances.trans hread.left,
        fun hs => Or.inl (hread.right (hbacked hs)).left, ?_⟩
      intro hs p hp hstatus
      cases hp
      exact (hread.right (hbacked hs)).right (by simpa [perform] using hstatus)
  | readText path =>
      have hread := readText_spec w cfg path s.begin_
      refine ⟨hbegin.toAdvances.trans hread.left,
        fun hs => Or.inl (hread.right (hbacked hs)).left, ?_⟩
      intro hs p hp hstatus
      cases hp
      exact (hread.right (hbacked hs)).right (by simpa [perform] using hstatus)
  | write path payload =>
      have hwrite := Attempts.run_keepsStamp (writeAttempt w cfg path payload)
        (fun _ _ _ _ h => writeAttempt_keepsStamp h) s.begin_
      refine ⟨hbegin.toAdvances.trans hwrite.left, fun hs => ?_, by simp [Op.reads]⟩
      rcases hwrite.right with hkeeps | ⟨_, hfailed⟩
      · exact Or.inl (hkeeps (hbacked hs))
      · exact Or.inr ⟨rfl, hfailed⟩
  | upload size path =>
      have hsend := Attempts.run_keepsStamp
        (sendAttempt w cfg true (contentsUpload w path (chunkCount size))
          (confirmSize w path size) s!"upload failed: {path}")
        (fun _ _ _ _ h => sendAttempt_keepsStamp
          (contentsUpload_passes w path (chunkCount size))
          (confirmSize_passes w path size) h) s.begin_
      refine ⟨hbegin.toAdvances.trans hsend.left, fun hs => ?_, by simp [Op.reads]⟩
      rcases hsend.right with hkeeps | ⟨_, hfailed⟩
      · exact Or.inl (hkeeps (hbacked hs))
      · exact Or.inr ⟨rfl, hfailed⟩
  | makedirs dir =>
      have hsend := Attempts.run_keepsStamp
        (sendAttempt w cfg false (contentsMakedirs w dir (ancestors dir))
          (confirmDirectory w dir) s!"could not create {dir}")
        (fun _ _ _ _ h => sendAttempt_keepsStamp
          (contentsMakedirs_passes w dir (ancestors dir))
          (confirmDirectory_passes w dir) h) s.begin_
      refine ⟨hbegin.toAdvances.trans hsend.left, fun hs => ?_, by simp [Op.reads]⟩
      rcases hsend.right with hkeeps | ⟨hfalse, _⟩
      · exact Or.inl (hkeeps (hbacked hs))
      · cases hfalse
  | remove path =>
      have hremove := remove_keeps w cfg path s.begin_
      exact ⟨hbegin.toAdvances.trans hremove.left,
        fun hs => Or.inl (hremove.right (hbacked hs)), by simp [Op.reads]⟩

/-!
## Runs
-/

/-- If the last call was a read that returned NOT_FOUND, the path was absent when
the call's last request was answered. -/
def NotFoundMeansAbsent (w : World) (r : Run) : Prop :=
  forall path, r.last = some (path, .notFound) ->
    AbsentAtLastAnswer w path r.transport

/-- The refresh of a writing call that has set the stamp succeeds, and no read is
answered by a 404 for the very token it has just refreshed. -/
def TokenKeepsUp (w : World) (cfg : Config) (r : Run) (op : Op) : Prop :=
  (op.stampsBefore = true -> forall status,
    .refresh (some 404) status ∈ (perform w cfg r.transport op).2.log -> status = .ok) ∧
  forall path, op.reads = some path ->
    ¬ExpiredAfterRefresh w path (perform w cfg r.transport op).2.log

theorem notFound_preserved (w : World) (cfg : Config) :
    (machine w cfg).Preserved (TokenKeepsUp w cfg)
      (fun r => Backed cfg r.transport ∧ NotFoundMeansAbsent w r) := by
  intro r op next hinv hguard hstep
  rcases perform_spec w cfg op r.transport with ⟨_, hkeeps, hread⟩
  have hnext : r.next w cfg op = next := by simpa [machine] using hstep
  rw [← hnext]
  constructor
  · rcases hkeeps hinv.left with hbacked | ⟨hstamps, status, older, hne, hlog⟩
    · exact hbacked
    · exact absurd (hguard.left hstamps status (by rw [hlog]; simp)) hne
  · intro path hlast
    have hcall : op.reads = some path ∧
        (perform w cfg r.transport op).1 = some .notFound := by
      simp only [Run.next, Option.bind_eq_some_iff, Option.map_eq_some_iff] at hlast
      rcases hlast with ⟨p, hp, status, hstatus, heq⟩
      cases heq
      exact ⟨hp, hstatus⟩
    rcases hread hinv.left path hcall.left hcall.right with habsent | hexpired
    · exact habsent
    · exact absurd hexpired (hguard.right path hcall.left)

theorem notFound_start (w : World) (cfg : Config) (r : Run)
    (h : (machine w cfg).start r) :
    Backed cfg r.transport ∧ NotFoundMeansAbsent w r := by
  rcases h with ⟨hlast, clock, tokenExpiry, session, hfresh⟩
  constructor
  · intro stamp hstamp
    rw [hfresh] at hstamp
    cases hstamp
  · intro path hpath
    rw [hlast] at hpath
    cases hpath

/-- A VM that has the one file, a second away, whose assignment listing fails the
first time when told to. -/
def oneFileVm (path : String) (firstFails : Bool) : World where
  hop := fun _ => ⟨1, 0, none, none, ""⟩
  listing := fun j =>
    ⟨1, 0, if firstFails ∧ j = 0 then some "HTTP 503" else none,
      ⟨some "token", none⟩, 0⟩
  releasedAt := none
  file := fun p _ => if p = path then some (.obj []) else none
  parent := fun _ _ => true
  loads := fun text => .error text
  decode := fun text => .error text

def defaults : Config := ⟨3, 1, 60⟩

/-- In every run whose tokens keep up, a NOT_FOUND means an absent file. -/
theorem notFound_absent (w : World) (cfg : Config) {r : Run}
    (hreach : (machine w cfg).Reaches (TokenKeepsUp w cfg) r) :
    NotFoundMeansAbsent w r :=
  (Machine.reaches_invariant (notFound_start w cfg) (notFound_preserved w cfg)
    hreach).right

/-- A run that meets the guard: an expired token is refreshed, and the second read
reports the missing file as such. -/
theorem notFound_absent_refreshed :
    exists r, (machine (oneFileVm "a" false) defaults).Reaches
        (TokenKeepsUp (oneFileVm "a" false) defaults) r ∧
      r.last = some ("b", .notFound) ∧ NotFoundMeansAbsent (oneFileVm "a" false) r := by
  let start : Run := ⟨State.fresh 100 50 ⟨"old", "url"⟩, none⟩
  let run : List Op := [.readJson "a", .readText "b"]
  have hfirst : (perform (oneFileVm "a" false) defaults start.transport
      (.readJson "a")).2.log =
        [.answer .get "a" 103 false, .refresh (some 404) .ok,
          .answer .get "a" 101 true] := rfl
  have hsecond : (perform (oneFileVm "a" false) defaults
      (start.next (oneFileVm "a" false) defaults (.readJson "a")).transport
      (.readText "b")).2.log = [.answer .get "b" 104 false] := by
    decide
  have hguard : (machine (oneFileVm "a" false) defaults).Guarded
      (TokenKeepsUp (oneFileVm "a" false) defaults) start run := by
    refine ⟨⟨by simp [Op.stampsBefore], fun path _ hexpired => ?_⟩, fun next hnext => ?_⟩
    · rw [hfirst] at hexpired
      rcases hexpired.of_cons with ⟨_, h⟩ | h
      · cases h
      · rcases h.of_cons with ⟨_, h⟩ | h
        · cases h
        · exact not_expiredAfterRefresh_single h
    · have hnext' : start.next (oneFileVm "a" false) defaults (.readJson "a") = next := by
        simpa [machine] using hnext
      rw [← hnext']
      refine ⟨⟨by simp [Op.stampsBefore], fun path _ hexpired => ?_⟩, fun _ _ => trivial⟩
      rw [hsecond] at hexpired
      exact not_expiredAfterRefresh_single hexpired
  have hreach : (machine (oneFileVm "a" false) defaults).Reaches
      (TokenKeepsUp (oneFileVm "a" false) defaults)
      (((machine (oneFileVm "a" false) defaults).exec start run).get
        (by decide)) :=
    ⟨start, run, ⟨rfl, 100, 50, _, rfl⟩, hguard, (Option.some_get _).symm⟩
  exact ⟨_, hreach, by decide,
    notFound_absent (oneFileVm "a" false) defaults hreach⟩

/-- A write whose 404 sets the stamp and whose refresh fails: the read after it takes
the expired token's 404 for an absent file. -/
theorem notFound_not_absent :
    exists (w : World) (cfg : Config) (r : Run), (machine w cfg).Reaches Machine.Free r ∧
      ¬NotFoundMeansAbsent w r := by
  let start : Run := ⟨State.fresh 100 50 ⟨"old", "url"⟩, none⟩
  let run : List Op := [.write "c" "", .readJson "a"]
  refine ⟨oneFileVm "a" true, defaults, _, ⟨start, run, ⟨rfl, 100, 50, _, rfl⟩,
    Machine.guarded_free _ run start, rfl⟩, ?_⟩
  intro habsent
  rcases habsent "a" rfl with ⟨time, expired, older, _, hfile⟩
  simp [oneFileVm] at hfile

end Transport
end Job
end MightyColab
