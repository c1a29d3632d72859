import MightyColab.Exec.AnsiStream
import MightyColab.Kernel.Outputs
import MightyColab.Lib.DateText

/-!
# The exit status of `exec`

`exec_command` from its session on: a first call to go to `/content`, and one call for each
block of code. It exits with 1 for an error among the outputs, but with `--json` it leaves
that to the envelope, whose exit code passes over a `SystemExit` of a success.
-/

namespace MightyColab
namespace Kernel

open Lib

/-!
## The code of an exit
-/

section Codes

variable (data : DateText.Digits)

def systemexitCode (evalue : Json) : Except HookError Int :=
  match evalue.orElse (.str "") with
  | .str text =>
      let text := Text.strip text
      .ok (if text ∈ ["", "None", "0", "False"] then 0 else (DateText.intOf data text).getD 1)
  | _ => .error attributeError

/-- The rest of `_exit_code_from_outputs`, with the code so far. -/
def exitCodeFrom : Int -> List Output -> Except HookError Int
  | code, [] => .ok code
  | code, .error ename evalue _ :: rest =>
      if ename.pyEq (.str "SystemExit") then do
        let ec <- systemexitCode data evalue
        exitCodeFrom (if ec ≠ 0 then ec else code) rest
      else .ok 1
  | code, _ :: rest => exitCodeFrom code rest

def exitCodeFromOutputs (outputs : List Output) : Except HookError Int :=
  exitCodeFrom data 0 outputs

/-- A `SystemExit` with the status of a success. -/
def Output.cleanExit : Output -> Prop
  | error ename evalue _ =>
      ename.pyEq (.str "SystemExit") = true ∧ systemexitCode data evalue = .ok 0
  | _ => False

/-- Each error of some outputs is a `SystemExit` of a success. -/
def Clean (outputs : List Output) : Prop :=
  forall o, o ∈ outputs -> o.isError = true -> o.cleanExit data

theorem exitCodeFrom_eq_zero {outputs : List Output} {code : Int} :
    exitCodeFrom data code outputs = .ok 0 <-> code = 0 ∧ Clean data outputs := by
  unfold Clean
  induction outputs generalizing code with
  | nil =>
      rw [exitCodeFrom, Except.ok.injEq]
      exact ⟨fun h => ⟨h, fun o hmem => by cases hmem⟩, And.left⟩
  | cons o rest ih =>
      have hpass (hnone : o.isError = false) (h : exitCodeFrom data code (o :: rest) =
          exitCodeFrom data code rest) : exitCodeFrom data code (o :: rest) = .ok 0 <->
            code = 0 ∧ forall o', o' ∈ o :: rest -> o'.isError = true -> o'.cleanExit data := by
        rw [h, ih, List.forall_mem_cons, hnone]
        simp
      cases o with
      | executeResult metadata result count => exact hpass rfl rfl
      | stream name text => exact hpass rfl rfl
      | displayData metadata result transient => exact hpass rfl rfl
      | error ename evalue traceback =>
          rw [exitCodeFrom, List.forall_mem_cons]
          split
          · next hexit =>
              cases hec : systemexitCode data evalue with
              | error e =>
                  refine iff_of_false (fun h => by cases h) fun h => ?_
                  have hclean := (h.right.left rfl).right
                  rw [hec] at hclean
                  cases hclean
              | ok ec =>
                  have hclean : (Output.error ename evalue traceback).cleanExit data <-> ec = 0 := by
                    rw [Output.cleanExit, hec, Except.ok.injEq]
                    exact and_iff_right hexit
                  rw [Fallible.ok_bind, ih, hclean]
                  by_cases hzero : ec = 0
                  · simp [hzero, Output.isError]
                  · simp [hzero, Output.isError]
          · next hother =>
              refine iff_of_false (fun h => by cases h) fun h => ?_
              exact hother (h.right.left rfl).left

end Codes

/-!
## Outputs for an envelope
-/

def typeError : HookError := .other "TypeError"

def stripLine : Json -> Except HookError Json
  | .str line => .ok (.str (String.ofList (Exec.stripAnsi line.toList)))
  | _ => .error typeError

/-- `[_strip_ansi(line) for line in traceback]`, which goes over the characters of a text and the
keys of a dict. -/
def stripLines : Json -> Except HookError Json
  | .arr lines => (lines.mapM stripLine).map .arr
  | .str text => ((text.toList.map fun c => .str (String.singleton c)).mapM stripLine).map .arr
  | .obj fields => ((fields.map fun field => .str field.1).mapM stripLine).map .arr
  | _ => .error typeError

def Output.jsonSafe : Output -> Except HookError Output
  | error ename evalue traceback =>
      if traceback.truthy then (stripLines traceback).map (error ename evalue ·)
      else .ok (error ename evalue traceback)
  | o => .ok o

def jsonSafeOutputs (strip : Bool) (outputs : List Output) : Except HookError (List Output) :=
  if strip then outputs.mapM Output.jsonSafe else .ok outputs

/-!
## Cells
-/

/-- A call of `execute_code` that has ended. -/
structure Call where
  display : Option (Output -> Except HookError Unit)
  msgId : String
  timed : Bool
  ended : State (List Output)
  outcome : Outcome
  reached : (machine (codeRequest display msgId timed) []).Reaches
    (Causal (codeRequest display msgId timed)) ended
  stopped : ended.point = .done outcome

/-- What `execute_interactive` returns or raises. -/
def Outcome.reply : Outcome -> Except HookError KernelMsg
  | returned reply => .ok reply
  | connectionLost => .error (.other "RuntimeError")
  | timedOut => .error .timeout
  | raised e => .error e
  | keyError => .error missingKey
  | stdinRaised e => .error e

def Call.result (call : Call) : Except HookError (List Output) := do
  let reply <- call.outcome.reply
  executeCode call.display.isSome call.ended.outputs reply.content

/-- No message after the last `clear_output` is an error, and the reply is none. -/
def Call.Faultless (call : Call) : Prop :=
  (forall msg, msg ∈ afterClear (ownOutput (codeRequest call.display call.msgId call.timed)
    (call.ended.came .iopub)) -> msg.msgType ≠ "error") ∧
      exists reply, call.outcome = .returned reply ∧
        (reply.content.get "status").pyEq (.str "error") = false

/-- `runtime.execute_code`, which starts a client of the kernel where it has none. -/
inductive Cell where
  | unstarted (e : HookError)
  | run (call : Call)

namespace Cell

def result : Cell -> Except HookError (List Output)
  | unstarted e => .error e
  | run call => call.result

def Faultless : Cell -> Prop
  | unstarted _ => False
  | run call => call.Faultless

end Cell

/-!
## The command
-/

/-- A block of code, and what the store before it and the notebook and the history after it
raise. -/
structure Block where
  code : String
  stored : Except HookError Unit := .ok ()
  cell : Cell
  logged : Except HookError Unit := .ok ()

structure Invocation where
  /-- `state.json_output` -/
  jsonOutput : Bool
  /-- `json_result_path is not None` -/
  sidecar : Bool := false
  noStripAnsi : Bool := false
  /-- The session has a record. -/
  found : Bool := true
  /-- The code that is read, or none from a terminal. -/
  input : Except HookError (Option (List Block))
  preflight : Cell
  /-- What stopping the client and pruning the session raise after the preflight. -/
  dropped : Except HookError Unit := .ok ()
  /-- What the store raises before the first block. -/
  begun : Except HookError Unit := .ok ()
  /-- What the `finally` block raises. -/
  finished : Except HookError Unit := .ok ()
  /-- What writing the envelope raises. -/
  written : Except HookError Unit := .ok ()

structure Exited where
  status : Int
  /-- The `exit_code` of the envelope, if one has been written. -/
  envelope : Option Int

def Exited.raised : Exited := ⟨1, none⟩

namespace Invocation

variable (i : Invocation)

def wantJson : Bool := i.jsonOutput || i.sidecar

/-- `_finish_json` where it is wanted, and the exit after it. -/
def finish (code status : Int) : Exited :=
  if i.wantJson then
    match i.written with
    | .ok () => ⟨status, some code⟩
    | .error _ => .raised
  else ⟨status, none⟩

/-- What goes into `blocks_json`. -/
def inEnvelope (outputs : List Output) : Except HookError (List Output) :=
  if i.wantJson then jsonSafeOutputs (!i.noStripAnsi) outputs else .ok []

/-- One turn of the loop: the outputs of a block, and as they stand in the envelope. -/
def turn (b : Block) : Except HookError (List Output × List Output) := do
  b.stored
  let outputs <- b.cell.result
  b.logged
  let safe <- i.inEnvelope outputs
  pure (outputs, safe)

def loop (blocks : List Block) : Except HookError (List (List Output × List Output)) := do
  i.begun
  blocks.mapM i.turn

end Invocation

/-- `if not any(b["code"].strip() for b in code_blocks)`. -/
def Blank (blocks : List Block) : Prop := forall b, b ∈ blocks -> Text.strip b.code = ""

instance (blocks : List Block) : Decidable (Blank blocks) := List.decidableBAll _ _

/-- `exec_command`, once it has its session. -/
def execCommand (data : DateText.Digits) (i : Invocation) : Exited :=
  if i.found = false then i.finish 1 1
  else
    match i.input with
    | .error _ => .raised
    | .ok none => i.finish 1 1
    | .ok (some blocks) =>
        if Blank blocks then i.finish 0 0
        else
          match i.preflight.result with
          | .error _ =>
              match i.dropped with
              | .error _ => .raised
              | .ok () => i.finish 1 1
          | .ok _ =>
              match i.loop blocks with
              | .error _ => i.finish 1 1
              | .ok turns =>
                  match i.finished with
                  | .error _ => .raised
                  | .ok () =>
                      if i.wantJson then
                        match exitCodeFromOutputs data (turns.flatMap Prod.snd) with
                        | .error _ => .raised
                        | .ok code => i.finish code 0
                      else if turns.any (fun t => t.1.any Output.isError) then ⟨1, none⟩
                      else ⟨0, none⟩

/-!
## What becomes of a block
-/

variable {data : DateText.Digits} {i : Invocation} {b : Block} {blocks : List Block}
  {outputs safe : List Output}

theorem Call.result_ok {call : Call} (h : call.result = .ok outputs) :
    exists reply, call.outcome = .returned reply ∧
      executeCode call.display.isSome call.ended.outputs reply.content = .ok outputs := by
  rcases Fallible.bind_ok h with ⟨reply, hreply, h⟩
  cases houtcome : call.outcome with
  | returned reply' =>
      rw [houtcome] at hreply
      cases hreply
      exact ⟨reply, rfl, h⟩
  | connectionLost | timedOut | keyError =>
      rw [houtcome] at hreply
      cases hreply
  | raised e | stdinRaised e =>
      rw [houtcome] at hreply
      cases hreply

theorem Cell.faultless_iff {cell : Cell} (h : cell.result = .ok outputs) :
    cell.Faultless <-> outputs.any Output.isError = false := by
  cases cell with
  | unstarted e => cases h
  | run call =>
      rcases Call.result_ok h with ⟨reply, houtcome, hcoded⟩
      have hstopped := call.stopped
      rw [houtcome] at hstopped
      have herrors := (executeCode_errors call.reached hstopped hcoded).right.left
      rw [← Bool.not_eq_true, herrors, not_or, Bool.not_eq_true]
      unfold Cell.Faultless Call.Faultless
      simp only [houtcome, Outcome.returned.injEq, exists_eq_left', not_exists, not_and]

theorem jsonSafe_ok (data : DateText.Digits) {o o' : Output} (h : o.jsonSafe = .ok o') :
    o'.isError = o.isError ∧ (o'.cleanExit data <-> o.cleanExit data) := by
  cases o with
  | error ename evalue traceback =>
      rw [Output.jsonSafe] at h
      split at h
      · rcases Fallible.map_ok h with ⟨lines, _, rfl⟩
        exact ⟨rfl, Iff.rfl⟩
      · cases h
        exact ⟨rfl, Iff.rfl⟩
  | executeResult metadata result count =>
      cases h
      exact ⟨rfl, Iff.rfl⟩
  | stream name text =>
      cases h
      exact ⟨rfl, Iff.rfl⟩
  | displayData metadata result transient =>
      cases h
      exact ⟨rfl, Iff.rfl⟩

theorem clean_cons {o : Output} : Clean data (o :: outputs) <->
    (o.isError = true -> o.cleanExit data) ∧ Clean data outputs := List.forall_mem_cons

theorem clean_jsonSafe {strip : Bool} (h : jsonSafeOutputs strip outputs = .ok safe) :
    Clean data safe <-> Clean data outputs := by
  unfold jsonSafeOutputs at h
  split at h
  · rw [Fallible.mapM_ok_iff] at h
    induction h with
    | nil => exact Iff.rfl
    | cons ho _ ih =>
        have hsame := jsonSafe_ok data ho
        rw [clean_cons, clean_cons, ih, hsame.left, hsame.right]
  · cases h
    exact Iff.rfl

namespace Invocation

theorem turn_ok {t : List Output × List Output} (h : i.turn b = .ok t) :
    b.cell.result = .ok t.1 ∧
      (i.wantJson = true -> jsonSafeOutputs (!i.noStripAnsi) t.1 = .ok t.2) := by
  rcases Fallible.bind_ok h with ⟨_, _, h⟩
  rcases Fallible.bind_ok h with ⟨outputs, houtputs, h⟩
  rcases Fallible.bind_ok h with ⟨_, _, h⟩
  rcases Fallible.bind_ok h with ⟨safe, hsafe, h⟩
  cases h
  refine ⟨houtputs, fun hwant => ?_⟩
  rwa [inEnvelope, if_pos hwant] at hsafe

/-- Nothing of the invocation raises. -/
structure Smooth (i : Invocation) (blocks : List Block) : Prop where
  preflight : exists outputs, i.preflight.result = .ok outputs
  begun : i.begun = .ok ()
  turns : forall b, b ∈ blocks -> exists t, i.turn b = .ok t
  finished : i.finished = .ok ()

/-- There is code for a session. -/
structure Given (i : Invocation) (blocks : List Block) : Prop where
  found : i.found = true
  input : i.input = .ok (some blocks)

theorem loop_ok {turns : List (List Output × List Output)} :
    i.loop blocks = .ok turns <-> i.begun = .ok () ∧
      List.Forall₂ (fun b t => i.turn b = .ok t) blocks turns := by
  unfold loop
  rw [← Fallible.mapM_ok_iff]
  cases i.begun with
  | error e => exact iff_of_false nofun fun h => by cases h.left
  | ok u => exact (and_iff_right rfl).symm

theorem turns_faultless {turns : List (List Output × List Output)}
    (h : List.Forall₂ (fun b t => i.turn b = .ok t) blocks turns) :
    turns.any (fun t => t.1.any Output.isError) = false <->
      forall b, b ∈ blocks -> b.cell.Faultless := by
  induction h with
  | nil => exact iff_of_true rfl (List.forall_mem_nil _)
  | cons hturn _ ih =>
      rw [List.any_cons, Bool.or_eq_false_iff, ih, List.forall_mem_cons,
        Cell.faultless_iff (turn_ok hturn).left]

theorem turns_clean {turns : List (List Output × List Output)} (hwant : i.wantJson = true)
    (h : List.Forall₂ (fun b t => i.turn b = .ok t) blocks turns) :
    Clean data (turns.flatMap Prod.snd) <->
      forall b, b ∈ blocks -> forall outputs, b.cell.result = .ok outputs -> Clean data outputs := by
  induction h with
  | nil => exact iff_of_true (List.forall_mem_nil _) (List.forall_mem_nil _)
  | @cons b t blocks turns hturn _ ih =>
      have hparts := turn_ok hturn
      have happend : Clean data (t.2 ++ turns.flatMap Prod.snd) <->
          Clean data t.2 ∧ Clean data (turns.flatMap Prod.snd) := List.forall_mem_append
      rw [List.flatMap_cons, happend, clean_jsonSafe (hparts.right hwant), ih,
        List.forall_mem_cons]
      refine and_congr_left' ⟨fun h outputs houtputs => ?_, fun h => h t.1 hparts.left⟩
      rw [hparts.left] at houtputs
      cases houtputs
      exact h

end Invocation

/-!
## The statuses
-/

theorem finish_status {code : Int} : (i.finish code 0).status = 0 <->
    if i.wantJson then (i.finish code 0).envelope ≠ none else True := by
  unfold Invocation.finish
  split
  · cases i.written with
    | ok u => exact iff_of_true rfl nofun
    | error e => exact iff_of_false Int.one_ne_zero fun h => h rfl
  · exact iff_of_true rfl trivial

theorem finish_envelope {code status : Int} : (i.finish code status).envelope = some 0 <->
    i.wantJson = true ∧ i.written = .ok () ∧ code = 0 := by
  unfold Invocation.finish
  split
  · next hwant =>
      rw [hwant, and_iff_right rfl]
      cases i.written with
      | ok u => simp
      | error e => exact iff_of_false nofun fun h => by cases h.left
  · next hwant => exact iff_of_false nofun fun h => hwant h.left

theorem finish_failed (i : Invocation) (code : Int) : (i.finish code 1).status = 1 := by
  unfold Invocation.finish
  split
  · cases i.written <;> rfl
  · rfl

theorem exec_given (data : DateText.Digits) (hgiven : i.Given blocks)
    (hsmooth : Blank blocks ∨ i.Smooth blocks) :
    (Blank blocks ∧ execCommand data i = i.finish 0 0) ∨
      (¬ Blank blocks ∧ i.Smooth blocks ∧
        exists turns, List.Forall₂ (fun b t => i.turn b = .ok t) blocks turns ∧
        execCommand data i = if i.wantJson then
            match exitCodeFromOutputs data (turns.flatMap Prod.snd) with
            | .error _ => .raised
            | .ok code => i.finish code 0
          else if turns.any (fun t => t.1.any Output.isError) then ⟨1, none⟩ else ⟨0, none⟩) := by
  have hfound : ¬ i.found = false := by
    rw [hgiven.found]
    decide
  by_cases hblank : Blank blocks
  · refine Or.inl ⟨hblank, ?_⟩
    unfold execCommand
    rw [if_neg hfound, hgiven.input]
    exact if_pos hblank
  · have hall := hsmooth.resolve_left hblank
    rcases hall.preflight with ⟨outputs, hpreflight⟩
    rcases Fallible.mapM_ok_exists.mpr hall.turns with ⟨turns, hturns⟩
    have hturns' := Fallible.mapM_ok_iff.mp hturns
    refine Or.inr ⟨hblank, hall, turns, hturns', ?_⟩
    unfold execCommand
    rw [if_neg hfound, hgiven.input]
    simp only
    rw [if_neg hblank, hpreflight]
    simp only
    rw [Invocation.loop_ok.mpr ⟨hall.begun, hturns'⟩, hall.finished]

theorem exec_stopped (data : DateText.Digits)
    (h : ¬ exists blocks, i.Given blocks ∧ (Blank blocks ∨ i.Smooth blocks)) :
    execCommand data i = .raised ∨ execCommand data i = i.finish 1 1 := by
  unfold execCommand
  split
  · exact Or.inr rfl
  next hfound =>
  rw [Bool.not_eq_false] at hfound
  cases hinput : i.input with
  | error e => exact Or.inl rfl
  | ok input =>
      cases input with
      | none => exact Or.inr rfl
      | some blocks =>
          simp only
          rw [if_neg fun hblank => h ⟨blocks, ⟨hfound, hinput⟩, Or.inl hblank⟩]
          cases hpreflight : i.preflight.result with
          | error e =>
              simp only
              cases i.dropped with
              | error e => exact Or.inl rfl
              | ok u => exact Or.inr rfl
          | ok outputs =>
              simp only
              cases hloop : i.loop blocks with
              | error e => exact Or.inr rfl
              | ok turns =>
                  simp only
                  cases hfinished : i.finished with
                  | error e => exact Or.inl rfl
                  | ok u =>
                      have hturns := Invocation.loop_ok.mp hloop
                      refine absurd ⟨blocks, ⟨hfound, hinput⟩, Or.inr ⟨⟨outputs, hpreflight⟩,
                        hturns.left, ?_, hfinished⟩⟩ h
                      exact Fallible.mapM_ok_exists.mp ⟨turns, Fallible.mapM_ok_iff.mpr hturns.right⟩

theorem Invocation.Given.exists_iff {p : List Block -> Prop} (h : i.Given blocks) :
    (exists blocks, i.Given blocks ∧ p blocks) <-> p blocks := by
  constructor
  · rintro ⟨blocks', h', hp⟩
    have hinput := h.input.symm.trans h'.input
    cases hinput
    exact hp
  · exact fun hp => ⟨blocks, h, hp⟩

end Kernel
end MightyColab
