import MightyColab.Lib.Json
import MightyColab.Lib.Runs
import MightyColab.Lib.Utf8
import MightyColab.Exec.AnsiStream

/-!
# Polls of a background exec

The worker of `exec-async` writes its log, its sidecar, and exits, while a client polls it with
`log --tail --json`, each time from the offset that the last poll gave it. Between any two
steps of a poll the worker may have gone on by any number of its own.
-/

namespace MightyColab
namespace Exec
namespace LogTail

open Lib Lib.Utf8

/-!
## Envelopes
-/

structure Envelope where
  command : String
  status : String
  exitCode : Int := 0
  reason : Option String := none
  httpStatus : Option Int := none
  blocks : Option (List Json) := none
  content : Option (List Char) := none
  nextOffset : Option Nat := none

inductive Model where
  | envelopeBase
  | execEnvelope

/-- `model_validate`: the base forbids `blocks`, which `ExecEnvelope` requires. -/
def Model.validates : Model -> Envelope -> Bool
  | envelopeBase, e => e.blocks.isNone
  | execEnvelope, e => e.blocks.isSome

/-- The model by which a poll checks the sidecar that it read. -/
def Envelope.model (e : Envelope) : Model :=
  if e.status = "error" then .envelopeBase else .execEnvelope

/-- What the worker finishes with, which `_finish_json` has checked. -/
structure Outcome where
  envelope : Envelope
  valid : envelope.model.validates envelope = true

def buildEnvelope (status command : String) (exitCode : Int) (reason : Option String) : Envelope :=
  { command, status, exitCode, reason }

def Envelope.merge (e : Envelope) (content : List Char) (nextOffset : Nat) : Envelope :=
  { e with content := some content, nextOffset := some nextOffset }

inductive Report where
  | noJobFound
  | finished (outcome : Outcome) (content : List Char) (nextOffset : Nat)
  | running (content : List Char) (nextOffset : Nat)
  | workerTerminated (content : List Char) (nextOffset : Nat)

def Report.envelope : Report -> Envelope
  | noJobFound => buildEnvelope "error" "log" 1 (some "no_job_found")
  | finished outcome content nextOffset => outcome.envelope.merge content nextOffset
  | running content nextOffset =>
      (buildEnvelope "running" "log" 0 none).merge content nextOffset
  | workerTerminated content nextOffset =>
      (buildEnvelope "error" "log" 1 (some "worker_terminated")).merge content nextOffset

/-- The model that `emit_json` is given. -/
def Report.model : Report -> Model
  | finished outcome _ _ => outcome.envelope.model
  | noJobFound | running _ _ | workerTerminated _ _ => .envelopeBase

theorem Report.validates (r : Report) : r.model.validates r.envelope = true := by
  cases r with
  | finished outcome content nextOffset =>
      have hvalid := outcome.valid
      change outcome.envelope.model.validates (outcome.envelope.merge content nextOffset) = true
      cases hmodel : outcome.envelope.model with
      | envelopeBase =>
          rw [hmodel] at hvalid
          exact hvalid
      | execEnvelope =>
          rw [hmodel] at hvalid
          exact hvalid
  | noJobFound => rfl
  | running content nextOffset => rfl
  | workerTerminated content nextOffset => rfl

def Report.isFinished : Report -> Bool
  | finished _ _ _ => true
  | noJobFound | running _ _ | workerTerminated _ _ => false

def Report.isWorkerTerminated : Report -> Bool
  | workerTerminated _ _ => true
  | noJobFound | finished _ _ _ | running _ _ => false

/-!
## Worker and poll
-/

/-- `open(json_result_path, "w")` leaves an empty file, and what `json.dump` has written of the
envelope is no document before the last brace. -/
inductive Sidecar where
  | absent
  | opened (outcome : Outcome)
  | complete (outcome : Outcome)

def Sidecar.isPresent : Sidecar -> Bool
  | absent => false
  | opened _ | complete _ => true

/-- What `json.load` reads. -/
def Sidecar.load : Sidecar -> Option Outcome
  | absent | opened _ => none
  | complete outcome => some outcome

/-- Where `_tail_log_json` stands. -/
inductive Stage where
  /-- before `os.path.exists(log_path)`, the first time -/
  | findJob
  /-- there was no log; before the test for the sidecar -/
  | findJobSidecar
  | readLog
  | findSidecar (content : List Char) (nextOffset : Nat)
  | loadSidecar (content : List Char) (nextOffset : Nat)
  | testPid (content : List Char) (nextOffset : Nat)

structure Poll where
  pid : Option Nat
  offset : Nat
  stage : Stage := .findJob

structure Setting where
  /-- The pid of the worker. -/
  worker : Nat
  worker_ne : worker ≠ 0
  noStripAnsi : Bool

structure State where
  /-- The bytes of the log that the worker has still to write. -/
  left : List UInt8
  log : Option (List UInt8) := none
  sidecar : Sidecar := .absent
  exited : Bool := false
  /-- The processes other than the worker. -/
  others : Nat -> Bool := fun _ => false
  poll : Option Poll := none
  /-- The last `next_offset` that the client was given. -/
  nextOffset : Nat := 0
  /-- All `content` that the client was given. -/
  contents : List Char := []
  reports : List Report := []

def State.bytes (s : State) : List UInt8 := s.log.getD []

def State.pidAlive (c : Setting) (s : State) : Option Nat -> Bool
  | none => false
  | some pid => pid ≠ 0 && ((pid = c.worker && !s.exited) || s.others pid)

def State.emit (s : State) (r : Report) : State :=
  { s with
    poll := none
    nextOffset := r.envelope.nextOffset.getD s.nextOffset
    contents := s.contents ++ r.envelope.content.getD []
    reports := r :: s.reports }

def State.goOn (s : State) (p : Poll) (stage : Stage) : State :=
  { s with poll := some { p with stage } }

def shown (c : Setting) (bytes : List UInt8) : List Char :=
  if c.noStripAnsi then decode bytes else stripAnsi (decode bytes)

/-- The next step of `_tail_log_json`. -/
def tailLogJson (c : Setting) (s : State) (p : Poll) : State :=
  match p.stage with
  | .findJob => s.goOn p (if s.log.isSome then .readLog else .findJobSidecar)
  | .findJobSidecar =>
      if s.sidecar.isPresent then s.goOn p .readLog else s.emit .noJobFound
  | .readLog =>
      match s.log with
      | none => s.goOn p (.findSidecar [] p.offset)
      | some bytes =>
          let newBytes := bytes.drop p.offset
          s.goOn p (.findSidecar (shown c newBytes) (p.offset + newBytes.length))
  | .findSidecar content nextOffset =>
      s.goOn p (if s.sidecar.isPresent then .loadSidecar content nextOffset
        else .testPid content nextOffset)
  | .loadSidecar content nextOffset =>
      match s.sidecar.load with
      | some outcome => s.emit (.finished outcome content nextOffset)
      | none => s.goOn p (.testPid content nextOffset)
  | .testPid content nextOffset =>
      s.emit (if s.pidAlive c p.pid then .running content nextOffset
        else .workerTerminated content nextOffset)

inductive Action where
  /-- `spawn_exec_async` opens the log and starts the worker. -/
  | spawn
  /-- The worker writes one more byte of its log. -/
  | append
  | openSidecar (outcome : Outcome)
  | dumpSidecar
  | exit
  /-- Another process starts or ends. -/
  | process (pid : Nat) (alive : Bool)
  | poll (pid : Option Nat)
  | advance

def step (c : Setting) (s : State) : Action -> Option State
  | .spawn => if s.log = none then some { s with log := some [] } else none
  | .append =>
      match s.log, s.left with
      | some bytes, b :: left =>
          if s.exited then none else some { s with log := some (bytes ++ [b]), left }
      | _, _ => none
  | .openSidecar outcome =>
      match s.log, s.sidecar with
      | some _, .absent => if s.exited then none else some { s with sidecar := .opened outcome }
      | _, _ => none
  | .dumpSidecar =>
      match s.sidecar with
      | .opened outcome => if s.exited then none else some { s with sidecar := .complete outcome }
      | _ => none
  | .exit => if s.log = none then none else some { s with exited := true }
  | .process pid alive => some { s with others := fun q => if q = pid then alive else s.others q }
  | .poll pid =>
      match s.poll with
      | none => some { s with poll := some { pid, offset := s.nextOffset } }
      | some _ => none
  | .advance => s.poll.map (tailLogJson c s)

/-- A worker that is to write this text, and nobody has looked yet. -/
def machine (c : Setting) (text : List Char) : Machine State Action where
  start s := s = { left := encode text }
  step := step c

/-!
## What a step does
-/

structure Worked (a : Action) (s s' : State) : Prop where
  poll : s'.poll = s.poll
  nextOffset : s'.nextOffset = s.nextOffset
  contents : s'.contents = s.contents
  reports : s'.reports = s.reports
  bytes : s.bytes <+: s'.bytes
  still : a ≠ .append -> s'.bytes = s.bytes
  sidecar : s.exited = true ∨ a = .exit -> s'.sidecar = s.sidecar
  exited : s'.exited = s.exited ∨ a = .exit ∧ s'.exited = true

variable {c : Setting} {s s' : State} {a : Action} {content : List Char} {nextOffset : Nat}
  {p : Poll}

theorem Worked.quiet (hpoll : s'.poll = s.poll) (hoffset : s'.nextOffset = s.nextOffset)
    (hcontents : s'.contents = s.contents) (hreports : s'.reports = s.reports)
    (hbytes : s'.bytes = s.bytes)
    (hsidecar : s.exited = true ∨ a = .exit -> s'.sidecar = s.sidecar)
    (hexited : s'.exited = s.exited ∨ a = .exit ∧ s'.exited = true) : Worked a s s' :=
  ⟨hpoll, hoffset, hcontents, hreports, hbytes ▸ List.prefix_refl _, fun _ => hbytes, hsidecar,
    hexited⟩

theorem step_cases (h : step c s a = some s') :
    Worked a s s' ∨
      (exists pid, a = .poll pid ∧ s.poll = none ∧
        s' = { s with poll := some { pid, offset := s.nextOffset } }) ∨
      exists p, a = .advance ∧ s.poll = some p ∧ s' = tailLogJson c s p := by
  cases a with
  | spawn =>
      rw [step] at h
      split at h
      · next hlog =>
          cases h
          have hbytes : s.bytes = [] := congrArg (Option.getD · []) hlog
          exact Or.inl (.quiet rfl rfl rfl rfl hbytes.symm (fun _ => rfl) (Or.inl rfl))
      · cases h
  | append =>
      rw [step] at h
      split at h
      · next bytes b left hlog hleft =>
          split at h
          · cases h
          · cases h
            have hbytes : s.bytes = bytes := congrArg (Option.getD · []) hlog
            refine Or.inl ⟨rfl, rfl, rfl, rfl, ?_, nofun, fun _ => rfl, Or.inl rfl⟩
            rw [hbytes]
            exact List.prefix_append _ _
      · cases h
  | openSidecar outcome =>
      rw [step] at h
      split at h
      · split at h
        · cases h
        · next hrunning =>
            cases h
            exact Or.inl (.quiet rfl rfl rfl rfl rfl
              (fun hover => hover.elim (absurd · hrunning) nofun) (Or.inl rfl))
      · cases h
  | dumpSidecar =>
      rw [step] at h
      split at h
      · split at h
        · cases h
        · next hrunning =>
            cases h
            exact Or.inl (.quiet rfl rfl rfl rfl rfl
              (fun hover => hover.elim (absurd · hrunning) nofun) (Or.inl rfl))
      · cases h
  | exit =>
      rw [step] at h
      split at h
      · cases h
      · cases h
        exact Or.inl (.quiet rfl rfl rfl rfl rfl (fun _ => rfl) (Or.inr ⟨rfl, rfl⟩))
  | process pid alive =>
      cases h
      exact Or.inl (.quiet rfl rfl rfl rfl rfl (fun _ => rfl) (Or.inl rfl))
  | poll pid =>
      rw [step] at h
      split at h
      · next hpoll =>
          cases h
          exact Or.inr (Or.inl ⟨pid, rfl, hpoll, rfl⟩)
      · cases h
  | advance =>
      cases hpoll : s.poll with
      | none =>
          rw [step, hpoll] at h
          cases h
      | some p =>
          rw [step, hpoll] at h
          cases h
          exact Or.inr (Or.inr ⟨p, rfl, rfl, rfl⟩)

def State.isFinished (s : State) : Bool := s.reports.any Report.isFinished

def Stage.read : Stage -> Option (List Char × Nat)
  | findJob | findJobSidecar | readLog => none
  | findSidecar content nextOffset | loadSidecar content nextOffset
  | testPid content nextOffset => some (content, nextOffset)

/-!
## Nothing lost and nothing repeated
-/

/-- All that the client was given is the log up to its last offset, and is the whole log once
a poll has given it the verdict of the sidecar. -/
structure Told (s : State) : Prop where
  decoded : s.contents = decode (s.bytes.take s.nextOffset)
  encoded : encode s.contents = s.bytes.take s.nextOffset
  whole : s.isFinished = true -> encode s.contents = s.bytes

/-- A read of the log finds it at the end of a character, and a read of the finished sidecar
finds the log as the poll has read it. -/
def Stage.Settled (s : State) : Stage -> Prop
  | readLog => Whole s.bytes
  | loadSidecar _ nextOffset => s.sidecar.load.isSome = true -> s.bytes.length = nextOffset
  | findJob | findJobSidecar | findSidecar _ _ | testPid _ _ => True

/-- Each step of a poll is settled, and the log does not grow after the verdict. -/
def Settled (s : State) : Action -> Prop
  | .append => s.isFinished = false
  | .advance => forall p, s.poll = some p -> p.stage.Settled s
  | .spawn | .openSidecar _ | .dumpSidecar | .exit | .process _ _ | .poll _ => True

instance (s : State) : forall stage : Stage, Decidable (stage.Settled s)
  | .readLog => inferInstanceAs (Decidable (Whole s.bytes))
  | .loadSidecar _ nextOffset =>
      inferInstanceAs (Decidable (s.sidecar.load.isSome = true -> s.bytes.length = nextOffset))
  | .findJob | .findJobSidecar | .findSidecar _ _ | .testPid _ _ => .isTrue trivial

instance (s : State) : forall a, Decidable (Settled s a)
  | .append => inferInstanceAs (Decidable (s.isFinished = false))
  | .advance => Option.decidableForallMem s.poll
  | .spawn | .openSidecar _ | .dumpSidecar | .exit | .process _ _ | .poll _ => .isTrue trivial

/-- With this content and offset, the client has the log up to the offset. -/
structure Reads (s : State) (content : List Char) (nextOffset : Nat) : Prop where
  text : encode (s.contents ++ content) = s.bytes.take nextOffset
  forward : s.nextOffset ≤ nextOffset
  within : nextOffset ≤ s.bytes.length

structure Consistent (s : State) : Prop where
  told : Reads s [] s.nextOffset
  offset : forall p, s.poll = some p -> p.offset = s.nextOffset
  read : forall p content nextOffset, s.poll = some p ->
    p.stage.read = some (content, nextOffset) -> Reads s content nextOffset
  whole : s.isFinished = true -> s.bytes.length = s.nextOffset

theorem Consistent.toTold (h : Consistent s) : Told s := by
  have htext := h.told.text
  rw [List.append_nil] at htext
  constructor
  · rw [← htext, decode_encode]
  · exact htext
  · intro hfinished
    rw [htext, ← h.whole hfinished, List.take_length]

theorem Reads.grown (h : Reads s content nextOffset) (hcontents : s'.contents = s.contents)
    (hoffset : s'.nextOffset = s.nextOffset) (hbytes : s.bytes <+: s'.bytes) :
    Reads s' content nextOffset := by
  cases hbytes with
  | intro more hmore =>
      constructor
      · rw [hcontents, ← hmore, List.take_append_of_le_length h.within]
        exact h.text
      · rw [hoffset]
        exact h.forward
      · rw [← hmore, List.length_append]
        exact Nat.le_add_right_of_le h.within

theorem Consistent.worked (h : Consistent s) (hworked : Worked a s s')
    (hguard : Settled s a) : Consistent s' := by
  constructor
  · rw [hworked.nextOffset]
    exact h.told.grown hworked.contents hworked.nextOffset hworked.bytes
  · intro p hp
    rw [hworked.nextOffset]
    exact h.offset p (hworked.poll.symm.trans hp)
  · intro p content nextOffset hp hread
    have hbefore := h.read p content nextOffset (hworked.poll.symm.trans hp) hread
    exact hbefore.grown hworked.contents hworked.nextOffset hworked.bytes
  · intro hfinished
    rw [State.isFinished, hworked.reports] at hfinished
    have hstill : s'.bytes = s.bytes := by
      refine hworked.still ?_
      intro happend
      rw [happend] at hguard
      exact Bool.noConfusion (hguard.symm.trans hfinished)
    rw [hstill, hworked.nextOffset]
    exact h.whole hfinished

theorem Consistent.goOn (h : Consistent s) (hpoll : s.poll = some p) {stage : Stage}
    (hread : forall content nextOffset, stage.read = some (content, nextOffset) ->
      Reads s content nextOffset) : Consistent (s.goOn p stage) := by
  constructor
  · exact h.told.grown rfl rfl (List.prefix_refl _)
  · intro p' hp'
    cases hp'
    exact h.offset p hpoll
  · intro p' content nextOffset hp' hstage
    cases hp'
    exact (hread content nextOffset hstage).grown rfl rfl (List.prefix_refl _)
  · exact h.whole

theorem Consistent.emit (h : Consistent s) {r : Report} {content : List Char} {nextOffset : Nat}
    (hcontent : r.envelope.content.getD [] = content)
    (hoffset : r.envelope.nextOffset.getD s.nextOffset = nextOffset)
    (hread : Reads s content nextOffset)
    (hfinal : r.isFinished = true -> s.bytes.length = nextOffset) : Consistent (s.emit r) := by
  constructor
  · constructor
    · change encode ((s.contents ++ r.envelope.content.getD []) ++ []) =
        s.bytes.take (r.envelope.nextOffset.getD s.nextOffset)
      rw [hcontent, hoffset, List.append_nil]
      exact hread.text
    · exact Nat.le_refl _
    · change r.envelope.nextOffset.getD s.nextOffset ≤ s.bytes.length
      rw [hoffset]
      exact hread.within
  · intro p hp
    cases hp
  · intro p content nextOffset hp
    cases hp
  · intro hfinished
    change s.bytes.length = r.envelope.nextOffset.getD s.nextOffset
    rw [hoffset]
    have hnow : r.isFinished = true ∨ s.isFinished = true := Bool.or_eq_true_iff.mp hfinished
    cases hnow with
    | inl hnow => exact hfinal hnow
    | inr hbefore =>
        have hwhole := h.whole hbefore
        have hforward := hread.forward
        have hwithin := hread.within
        omega

theorem Reads.next (h : Reads s [] s.nextOffset) (hwhole : Whole s.bytes)
    (hstrip : c.noStripAnsi = true) :
    Reads s (shown c (s.bytes.drop s.nextOffset))
      (s.nextOffset + (s.bytes.drop s.nextOffset).length) := by
  have htext := h.text
  rw [List.append_nil] at htext
  have hsplit : decode s.bytes = s.contents ++ decode (s.bytes.drop s.nextOffset) := by
    conv_lhs => rw [← List.take_append_drop s.nextOffset s.bytes, ← htext]
    exact decode_encode_append _ _
  have hlength : s.nextOffset + (s.bytes.drop s.nextOffset).length = s.bytes.length := by
    have hwithin := h.within
    rw [List.length_drop]
    omega
  constructor
  · rw [shown, if_pos hstrip, hlength, List.take_length, ← hsplit]
    exact hwhole
  · exact Nat.le_add_right _ _
  · exact Nat.le_of_eq hlength

theorem tailLogJson_consistent (hstrip : c.noStripAnsi = true) (h : Consistent s)
    (hpoll : s.poll = some p) (hguard : p.stage.Settled s) :
    Consistent (tailLogJson c s p) := by
  have hread := h.read p
  unfold tailLogJson
  cases hstage : p.stage with
  | findJob =>
      refine h.goOn hpoll ?_
      intro content nextOffset hnone
      split at hnone <;> cases hnone
  | findJobSidecar =>
      simp only
      split
      · exact h.goOn hpoll nofun
      · exact h.emit rfl rfl h.told nofun
  | readLog =>
      rw [hstage] at hguard
      have hbytes : s.bytes = s.log.getD [] := rfl
      cases hlog : s.log with
      | none =>
          refine h.goOn hpoll ?_
          intro content nextOffset hsome
          cases hsome
          rw [h.offset p hpoll]
          exact h.told
      | some bytes =>
          rw [hlog, Option.getD_some] at hbytes
          refine h.goOn hpoll ?_
          intro content nextOffset hsome
          cases hsome
          rw [h.offset p hpoll, ← hbytes]
          exact h.told.next hguard hstrip
  | findSidecar content nextOffset =>
      have hnext := hread content nextOffset hpoll (congrArg Stage.read hstage)
      refine h.goOn hpoll ?_
      intro content' nextOffset' hsome
      split at hsome
      · cases hsome
        exact hnext
      · cases hsome
        exact hnext
  | loadSidecar content nextOffset =>
      have hnext := hread content nextOffset hpoll (congrArg Stage.read hstage)
      rw [hstage] at hguard
      cases hload : s.sidecar.load with
      | none =>
          refine h.goOn hpoll ?_
          intro content' nextOffset' hsome
          cases hsome
          exact hnext
      | some outcome =>
          refine h.emit rfl rfl hnext fun _ => hguard ?_
          rw [hload]
          rfl
  | testPid content nextOffset =>
      have hnext := hread content nextOffset hpoll (congrArg Stage.read hstage)
      simp only
      split
      · exact h.emit rfl rfl hnext nofun
      · exact h.emit rfl rfl hnext nofun

theorem consistent_preserved (hstrip : c.noStripAnsi = true) (text : List Char) :
    (machine c text).Preserved Settled Consistent := by
  intro s a next h hguard hstep
  rcases step_cases hstep with hworked | ⟨pid, ha, hpoll, hnext⟩ | ⟨p, ha, hpoll, hnext⟩
  · exact h.worked hworked hguard
  · rw [hnext]
    constructor
    · exact h.told.grown rfl rfl (List.prefix_refl _)
    · intro p hp
      cases hp
      rfl
    · intro p content nextOffset hp hread
      cases hp
      cases hread
    · exact h.whole
  · rw [ha] at hguard
    rw [hnext]
    exact tailLogJson_consistent hstrip h hpoll (hguard p hpoll)

theorem start_consistent (text : List Char) : Consistent { left := encode text } where
  told := ⟨rfl, Nat.le_refl _, Nat.le_refl _⟩
  offset := nofun
  read := nofun
  whole := nofun

theorem polls_tell_log (hstrip : c.noStripAnsi = true) (text : List Char)
    (hreach : (machine c text).Reaches Settled s) : Told s := by
  have hinv := Machine.reaches_invariant (fun s0 hs0 => by rw [hs0]; exact start_consistent text)
    (consistent_preserved hstrip text) hreach
  exact hinv.toTold

def raw : Setting := ⟨7, by decide, true⟩

def succeeded : Outcome := ⟨⟨"exec", "ok", 0, none, none, some [], none, none⟩, rfl⟩

theorem polls_tell_log_finished :
    exists s, (machine raw ['é']).Reaches Settled s ∧ s.isFinished = true ∧
      s.contents = ['é'] ∧ Told s := by
  let run : List Action := [.spawn, .append, .append, .openSidecar succeeded, .dumpSidecar,
    .poll (some 7), .advance, .advance, .advance, .advance]
  have hreach : (machine raw ['é']).Reaches Settled
      (((machine raw ['é']).exec { left := encode ['é'] } run).get (by decide)) :=
    ⟨_, run, rfl, by decide, (Option.some_get _).symm⟩
  exact ⟨_, hreach, by decide, by decide, polls_tell_log rfl ['é'] hreach⟩

/-- A poll between the two bytes of a character and one after them. -/
theorem character_replaced :
    ¬(forall c text s, c.noStripAnsi = true -> (machine c text).Reaches Machine.Free s ->
      Told s) := by
  intro h
  let poll : List Action := [.poll (some 7), .advance, .advance, .advance, .advance]
  let run : List Action := [.spawn, .append] ++ poll ++ [.append] ++ poll
  have htold := h raw ['é'] _ rfl ⟨_, run, rfl, Machine.guarded_free _ run _, (Option.some_get
    (show ((machine raw ['é']).exec { left := encode ['é'] } run).isSome by decide)).symm⟩
  have hencoded := htold.encoded
  revert hencoded
  decide

/-- A worker that goes on between a poll's read of the log and its test for the sidecar. -/
theorem verdict_before_end :
    exists s, (machine raw ['a', 'b']).Reaches Machine.Free s ∧ s.isFinished = true ∧
      s.contents = ['a'] ∧ s.bytes = encode ['a', 'b'] ∧ ¬Told s := by
  let run : List Action := [.spawn, .append, .poll (some 7), .advance, .advance, .append,
    .openSidecar succeeded, .dumpSidecar, .advance, .advance]
  refine ⟨((machine raw ['a', 'b']).exec { left := encode ['a', 'b'] } run).get
    (by decide), ⟨_, run, rfl, Machine.guarded_free _ run _, (Option.some_get _).symm⟩,
    by decide, by decide, by decide, fun htold => ?_⟩
  have hwhole := htold.whole (by decide)
  revert hwhole
  decide

/-!
## Finished and not killed
-/

def Stage.isTestPid : Stage -> Bool
  | testPid _ _ => true
  | findJob | findJobSidecar | readLog | findSidecar _ _ | loadSidecar _ _ => false

/-- A worker that a poll has reported as terminated has exited without its sidecar. -/
def Truthful (s : State) : Prop :=
  s.reports.any Report.isWorkerTerminated = true -> s.exited = true ∧ s.sidecar.load = none

/-- The polls test the worker's pid, and the worker does not exit with its sidecar complete
while a poll that has missed the sidecar has still to test the pid. -/
def Awaited (c : Setting) (s : State) : Action -> Prop
  | .poll pid => pid = some c.worker
  | .exit => s.sidecar.load.isSome = true ->
      forall p, s.poll = some p -> p.stage.isTestPid = false
  | .spawn | .append | .openSidecar _ | .dumpSidecar | .process _ _ | .advance => True

instance (c : Setting) (s : State) : forall a, Decidable (Awaited c s a)
  | .poll pid => inferInstanceAs (Decidable (pid = some c.worker))
  | .exit =>
      have := Option.decidableForallMem (p := fun p : Poll => p.stage.isTestPid = false) s.poll
      inferInstanceAs (Decidable (s.sidecar.load.isSome = true ->
        forall p, p ∈ s.poll -> p.stage.isTestPid = false))
  | .spawn | .append | .openSidecar _ | .dumpSidecar | .process _ _ | .advance => .isTrue trivial

structure Attested (c : Setting) (s : State) : Prop where
  pid : forall p, s.poll = some p -> p.pid = some c.worker
  missed : forall p, s.poll = some p -> p.stage.isTestPid = true -> s.exited = true ->
    s.sidecar.load = none
  truthful : Truthful s

theorem pidAlive_worker (h : s.pidAlive c (some c.worker) = false) : s.exited = true := by
  have hne : decide (c.worker ≠ 0) = true := decide_eq_true c.worker_ne
  rw [State.pidAlive, hne, Bool.true_and, Bool.or_eq_false_iff, decide_eq_true rfl,
    Bool.true_and] at h
  exact Bool.not_eq_eq_eq_not.mp h.left

theorem Attested.worked (h : Attested c s) (hworked : Worked a s s') (hguard : Awaited c s a) :
    Attested c s' := by
  constructor
  · intro p hp
    exact h.pid p (hworked.poll.symm.trans hp)
  · intro p hp hstage hexited'
    have hp := hworked.poll.symm.trans hp
    rcases hworked.exited with hsame | ⟨hexit, _⟩
    · have hexited : s.exited = true := hsame.symm.trans hexited'
      rw [hworked.sidecar (Or.inl hexited)]
      exact h.missed p hp hstage hexited
    · rw [hworked.sidecar (Or.inr hexit)]
      rw [hexit] at hguard
      cases hload : s.sidecar.load with
      | none => rfl
      | some outcome =>
          have hother := hguard (congrArg Option.isSome hload) p hp
          exact Bool.noConfusion (hother.symm.trans hstage)
  · intro hterminated
    rw [hworked.reports] at hterminated
    rcases h.truthful hterminated with ⟨hexited, hload⟩
    constructor
    · rcases hworked.exited with hsame | ⟨_, hexited'⟩
      · exact hsame.trans hexited
      · exact hexited'
    · rw [hworked.sidecar (Or.inl hexited)]
      exact hload

theorem Attested.goOn (h : Attested c s) (hpoll : s.poll = some p) {stage : Stage}
    (hmissed : stage.isTestPid = true -> s.sidecar.load = none) :
    Attested c (s.goOn p stage) := by
  constructor
  · intro p' hp'
    cases hp'
    exact h.pid p hpoll
  · intro p' hp' hstage _
    cases hp'
    exact hmissed hstage
  · exact h.truthful

theorem Attested.emit (h : Attested c s) {r : Report}
    (hterminated : r.isWorkerTerminated = true -> s.exited = true ∧ s.sidecar.load = none) :
    Attested c (s.emit r) := by
  constructor
  · intro p hp
    cases hp
  · intro p hp
    cases hp
  · intro hany
    have hnow : r.isWorkerTerminated = true ∨ s.reports.any Report.isWorkerTerminated = true :=
      Bool.or_eq_true_iff.mp hany
    cases hnow with
    | inl hnow => exact hterminated hnow
    | inr hbefore => exact h.truthful hbefore

theorem tailLogJson_attested (h : Attested c s) (hpoll : s.poll = some p) :
    Attested c (tailLogJson c s p) := by
  unfold tailLogJson
  cases hstage : p.stage with
  | findJob =>
      refine h.goOn hpoll ?_
      intro htest
      split at htest <;> cases htest
  | findJobSidecar =>
      simp only
      split
      · exact h.goOn hpoll nofun
      · exact h.emit nofun
  | readLog =>
      simp only
      split
      · exact h.goOn hpoll nofun
      · exact h.goOn hpoll nofun
  | findSidecar content nextOffset =>
      refine h.goOn hpoll ?_
      intro htest
      cases hsidecar : s.sidecar with
      | absent => rfl
      | opened outcome => rfl
      | complete outcome =>
          rw [hsidecar] at htest
          cases htest
  | loadSidecar content nextOffset =>
      cases hload : s.sidecar.load with
      | none => exact h.goOn hpoll fun _ => hload
      | some outcome => exact h.emit nofun
  | testPid content nextOffset =>
      simp only
      split
      · exact h.emit nofun
      · next hdead =>
          refine h.emit fun _ => ?_
          rw [h.pid p hpoll] at hdead
          have hexited := pidAlive_worker (Bool.eq_false_iff.mpr hdead)
          exact ⟨hexited, h.missed p hpoll (congrArg Stage.isTestPid hstage) hexited⟩

theorem attested_preserved (c : Setting) (text : List Char) :
    (machine c text).Preserved (Awaited c) (Attested c) := by
  intro s a next h hguard hstep
  rcases step_cases hstep with hworked | ⟨pid, ha, hpoll, hnext⟩ | ⟨p, ha, hpoll, hnext⟩
  · exact h.worked hworked hguard
  · rw [ha] at hguard
    rw [hnext]
    constructor
    · intro p hp
      cases hp
      exact hguard
    · intro p hp hstage
      cases hp
      cases hstage
    · exact h.truthful
  · rw [hnext]
    exact tailLogJson_attested h hpoll

theorem terminated_without_sidecar (c : Setting) (text : List Char)
    (hreach : (machine c text).Reaches (Awaited c) s) : Truthful s := by
  have hstart : Attested c { left := encode text } := ⟨nofun, nofun, nofun⟩
  have hinv := Machine.reaches_invariant (fun s0 hs0 => by rw [hs0]; exact hstart)
    (attested_preserved c text) hreach
  exact hinv.truthful

theorem terminated_without_sidecar_killed :
    exists s, (machine raw []).Reaches (Awaited raw) s ∧
      s.reports.any Report.isWorkerTerminated = true ∧ Truthful s := by
  let run : List Action := [.spawn, .openSidecar succeeded, .poll (some 7), .advance, .advance,
    .advance, .advance, .exit, .advance]
  have hreach : (machine raw []).Reaches (Awaited raw)
      (((machine raw []).exec { left := encode [] } run).get (by decide)) :=
    ⟨_, run, rfl, by decide, (Option.some_get _).symm⟩
  exact ⟨_, hreach, by decide, terminated_without_sidecar raw [] hreach⟩

/-- A worker that finishes between a poll's test for the sidecar and its test of the pid. -/
theorem finished_reported_terminated :
    exists s, (machine raw []).Reaches Machine.Free s ∧ s.sidecar.load.isSome = true ∧
      s.reports.any Report.isWorkerTerminated = true ∧ ¬Truthful s := by
  let run : List Action := [.spawn, .poll (some 7), .advance, .advance, .advance,
    .openSidecar succeeded, .dumpSidecar, .exit, .advance]
  refine ⟨((machine raw []).exec { left := encode [] } run).get (by decide),
    ⟨_, run, rfl, Machine.guarded_free _ run _, (Option.some_get _).symm⟩,
    by decide, by decide, fun htruthful => ?_⟩
  have hload := (htruthful (by decide)).right
  revert hload
  decide

end LogTail
end Exec
end MightyColab
