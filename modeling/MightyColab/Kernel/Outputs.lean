import MightyColab.Kernel.Execute
import MightyColab.Lib.Fallible
import MightyColab.Lib.Text
import Mathlib.Data.List.DropRight

/-!
# The outputs of an execution

`output_hook` gathers the outputs of a cell one message at a time, and
`ColabRuntime.execute_code` adds the error that a reply tells of and no output does.
-/

namespace MightyColab
namespace Kernel

open Lib

/-- An entry of `outputs`, under its `output_type`. -/
inductive Output where
  | executeResult (metadata data executionCount : Json)
  | stream (name text : Json)
  /-- with its `transient`, where that has not been deleted -/
  | displayData (metadata data : Json) (transient : Option Json)
  | error (ename evalue traceback : Json)

def attributeError : HookError := .other "AttributeError"

def missingKey : HookError := .other "KeyError"

/-- `content[name]`. -/
def item (content : Json.Fields) (name : String) : Except HookError Json :=
  match content.lookup name with
  | some value => .ok value
  | none => .error missingKey

/-- `.get("transient", {}).get("display_id")`. -/
def displayId : Option Json -> Except HookError Json
  | none => .ok .null
  | some (.obj fields) => .ok (Json.Fields.get fields "display_id")
  | some _ => .error attributeError

namespace Output

def transient : Output -> Option Json
  | displayData _ _ transient => transient
  | executeResult .. | stream .. | error .. => none

def isError : Output -> Bool
  | error .. => true
  | executeResult .. | stream .. | displayData .. => false

/-- `output["metadata"] = ..` and `output["data"] = ..`; no other output has a display id. -/
def replace (metadata data : Json) : Output -> Output
  | displayData _ _ transient => displayData metadata data transient
  | o => o

def of (msg : KernelMsg) : Option Output :=
  let content := msg.content
  if msg.msgType = "execute_result" then
    some (executeResult (content.get "metadata") (content.get "data")
      (content.get "execution_count"))
  else if msg.msgType = "stream" then
    some (stream (content.get "name") (content.get "text"))
  else if msg.msgType = "display_data" then
    some (displayData (content.get "metadata") (content.get "data")
      (some (content.get "transient")))
  else if msg.msgType = "error" then
    some (error (content.get "ename") (content.get "evalue") (content.get "traceback"))
  else none

end Output

/-- The outputs of a display id are updated; with the indexes of these, from `index` on. -/
def updateDisplay (content : Json.Fields) (id : Json) :
    Nat -> List Output -> Except HookError (List Output × List Nat)
  | _, [] => .ok ([], [])
  | index, o :: rest => do
      let own <- displayId o.transient
      if own.pyEq id then
        let metadata <- item content "metadata"
        let data <- item content "data"
        let (rest, indexes) <- updateDisplay content id (index + 1) rest
        pure (o.replace metadata data :: rest, index :: indexes)
      else
        let (rest, indexes) <- updateDisplay content id (index + 1) rest
        pure (o :: rest, indexes)

/-- `output_hook`: the outputs with a message, and the indexes of those that it changed. -/
def outputHook (outputs : List Output) (msg : KernelMsg) :
    Except HookError (List Output × List Nat) :=
  match Output.of msg with
  | some o => .ok (outputs ++ [o], [outputs.length])
  | none =>
      if msg.msgType = "clear_output" then .ok ([], List.range outputs.length)
      else if msg.msgType = "update_display_data" then do
        let id <- displayId (msg.content.lookup "transient")
        if id.truthy then updateDisplay msg.content id 0 outputs else pure (outputs, [])
      else .ok (outputs, [])

/-- The hook of `execute_code`, which shows each output that has changed where there is
something to show it with. -/
def codeHook (display : Option (Output -> Except HookError Unit)) (outputs : List Output)
    (msg : KernelMsg) : Except HookError (List Output) := do
  let (outputs, indexes) <- outputHook outputs msg
  match display with
  | none => pure outputs
  | some display => do
      let _ <- (indexes.filterMap fun index => outputs[index]?).mapM display
      pure outputs

/-- `execute_code`, without `allow_stdin`, up to the reply. -/
def codeRequest (display : Option (Output -> Except HookError Unit)) (msgId : String)
    (timed : Bool) : Request (List Output) where
  msgId
  allowStdin := false
  timed
  outputHook := codeHook display
  stdinHook _ := .ok ()

def synthesized (status : Json) (reply : Json.Fields) (outputs : List Output) : List Output :=
  if status.pyEq (.str "error") ∧ outputs.any Output.isError = false then
    [.error (reply.getD "ename" (.str "Error")) (reply.getD "evalue" (.str "Unknown error"))
      (reply.getD "traceback" (.arr []))]
  else []

/-- `del output["transient"]`. -/
def Output.settle : Output -> Output
  | displayData metadata data _ => displayData metadata data none
  | o => o

/-- What `execute_code` makes of the outputs and the reply. Without a display it has gone through
`KernelClient.execute`, which gives no more of the reply than its status. -/
def executeCode (streamed : Bool) (outputs : List Output) (reply : Json.Fields) :
    Except HookError (List Output) :=
  if streamed then .ok (outputs ++ synthesized (reply.get "status") reply outputs)
  else do
    let status <- item reply "status"
    let outputs := outputs.map Output.settle
    pure (outputs ++ synthesized status [] outputs)

/-!
## The outputs as a whole
-/

def ownOutput {alpha : Type} (r : Request alpha) : List KernelMsg -> List KernelMsg
  | [] => []
  | msg :: rest =>
      if r.own msg then
        msg :: (if Request.idle msg = some false then ownOutput r rest else [])
      else ownOutput r rest

def KernelMsg.clears (msg : KernelMsg) : Bool := msg.msgType = "clear_output"

def KernelMsg.updates (msg : KernelMsg) : Option Json :=
  if msg.msgType = "update_display_data" then
    match displayId (msg.content.lookup "transient") with
    | .ok id => if id.truthy then some id else none
    | .error _ => none
  else none

/-- An output once a message has come that may update it. -/
def Output.after (o : Output) (msg : KernelMsg) : Output :=
  match msg.updates, displayId o.transient with
  | some id, .ok own =>
      if own.pyEq id then o.replace (msg.content.get "metadata") (msg.content.get "data") else o
  | _, _ => o

def shown : List KernelMsg -> List Output
  | [] => []
  | msg :: rest => (Output.of msg).toList.map (fun o => rest.foldl Output.after o) ++ shown rest

/-- The messages after the last `clear_output`. -/
def afterClear (msgs : List KernelMsg) : List KernelMsg := msgs.rtakeWhile fun msg => !msg.clears

variable {outputs outputs' : List Output} {msg : KernelMsg} {msgs : List KernelMsg}
  {display : Option (Output -> Except HookError Unit)}

theorem of_some {o : Output} (h : Output.of msg = some o) :
    msg.clears = false ∧ msg.updates = none := by
  unfold KernelMsg.clears KernelMsg.updates
  unfold Output.of at h
  by_cases hclear : msg.msgType = "clear_output"
  · simp [hclear] at h
  by_cases hupdate : msg.msgType = "update_display_data"
  · simp [hupdate] at h
  · exact ⟨decide_eq_false hclear, if_neg hupdate⟩

theorem map_after (h : msg.updates = none) (outputs : List Output) :
    outputs.map (fun o => o.after msg) = outputs := by
  refine (List.map_congr_left fun o _ => ?_).trans (List.map_id outputs)
  rw [Output.after, h]
  rfl

theorem item_ok {content : Json.Fields} {name : String} {value : Json}
    (h : item content name = .ok value) : content.get name = value := by
  unfold item at h
  unfold Json.Fields.get
  cases hlookup : content.lookup name with
  | none =>
      rw [hlookup] at h
      cases h
  | some found =>
      rw [hlookup] at h
      cases h
      rfl

theorem updateDisplay_ok {id : Json} (hid : msg.updates = some id) :
    forall {outputs : List Output} {index : Nat} {result : List Output × List Nat},
      updateDisplay msg.content id index outputs = .ok result ->
        result.1 = outputs.map fun o => o.after msg := by
  intro outputs
  induction outputs with
  | nil =>
      intro index result h
      cases h
      rfl
  | cons o rest ih =>
      intro index result h
      rw [updateDisplay] at h
      rcases Fallible.bind_ok h with ⟨own, hown, h⟩
      rw [List.map_cons, Output.after, hid, hown]
      split at h
      · next hsame =>
          rcases Fallible.bind_ok h with ⟨metadata, hmetadata, h⟩
          rcases Fallible.bind_ok h with ⟨data, hdata, h⟩
          rcases Fallible.bind_ok h with ⟨others, hothers, h⟩
          cases h
          simp only [hsame, if_true, item_ok hmetadata, item_ok hdata, ih hothers]
      · next hother =>
          rcases Fallible.bind_ok h with ⟨others, hothers, h⟩
          cases h
          simp only [hother, ih hothers]
          rfl

theorem outputHook_ok {result : List Output × List Nat} (h : outputHook outputs msg = .ok result) :
    result.1 = if msg.clears then []
      else outputs.map (fun o => o.after msg) ++ (Output.of msg).toList := by
  unfold outputHook at h
  cases hof : Output.of msg with
  | some o =>
      simp only [hof] at h
      cases h
      rw [(of_some hof).left, map_after (of_some hof).right]
      rfl
  | none =>
      simp only [hof] at h
      rw [Option.toList_none, List.append_nil]
      by_cases hclear : msg.msgType = "clear_output"
      · rw [if_pos hclear] at h
        cases h
        rw [KernelMsg.clears, if_pos (decide_eq_true hclear)]
      have hclears : msg.clears = false := decide_eq_false hclear
      rw [if_neg hclear] at h
      rw [hclears, if_neg Bool.false_ne_true]
      by_cases hupdate : msg.msgType = "update_display_data"
      · rw [if_pos hupdate] at h
        rcases Fallible.bind_ok h with ⟨id, hid, h⟩
        split at h
        · next htruthy =>
            have hupdates : msg.updates = some id := by
              simp only [KernelMsg.updates, if_pos hupdate, hid, if_pos htruthy]
            exact updateDisplay_ok hupdates h
        · next hfalsy =>
            have hupdates : msg.updates = none := by
              simp only [KernelMsg.updates, if_pos hupdate, hid, if_neg hfalsy]
            cases h
            exact (map_after hupdates outputs).symm
      · rw [if_neg hupdate] at h
        cases h
        exact (map_after (if_neg hupdate) outputs).symm

theorem codeHook_ok (h : codeHook display outputs msg = .ok outputs') :
    outputs' = if msg.clears then []
      else outputs.map (fun o => o.after msg) ++ (Output.of msg).toList := by
  rcases Fallible.bind_ok h with ⟨⟨found, indexes⟩, hfound, h⟩
  have hsame : found = outputs' := by
    cases display with
    | none => exact Except.ok.inj h
    | some display =>
        rcases Fallible.bind_ok h with ⟨_, _, h⟩
        exact Except.ok.inj h
  rw [← hsame]
  exact outputHook_ok hfound

theorem shown_concat (msgs : List KernelMsg) (msg : KernelMsg) :
    shown (msgs ++ [msg]) =
      (shown msgs).map (fun o => o.after msg) ++ (Output.of msg).toList := by
  induction msgs with
  | nil => simp [shown]
  | cons first rest ih =>
      rw [List.cons_append, shown, shown, ih, List.map_append, List.append_assoc, List.map_map]
      simp [Function.comp_def]

theorem afterClear_concat (msgs : List KernelMsg) (msg : KernelMsg) :
    afterClear (msgs ++ [msg]) = if msg.clears then [] else afterClear msgs ++ [msg] := by
  rw [afterClear, List.rtakeWhile_concat]
  cases msg.clears <;> rfl

/-- The outputs that are gathered are those after the last `clear_output`, each as the last update
of its display has left it. -/
theorem gathered : forall {msgs : List KernelMsg} {outputs : List Output},
    msgs.foldlM (codeHook display) [] = .ok outputs -> outputs = shown (afterClear msgs) := by
  intro msgs
  induction msgs using List.reverseRecOn with
  | nil =>
      intro outputs h
      cases h
      rfl
  | append_singleton msgs msg ih =>
      intro outputs h
      rw [List.foldlM_append] at h
      rcases Fallible.bind_ok h with ⟨before, hbefore, h⟩
      rw [List.foldlM_cons] at h
      rcases Fallible.bind_ok h with ⟨last, hlast, h⟩
      cases h
      rw [codeHook_ok hlast, ih hbefore, afterClear_concat]
      split
      · rfl
      · exact (shown_concat (afterClear msgs) msg).symm

theorem consume_finished {alpha : Type} {r : Request alpha} :
    forall {msgs : List KernelMsg} {outputs outputs' : alpha},
      consume r outputs msgs = .finished outputs' ->
        (ownOutput r msgs).foldlM r.outputHook outputs = .ok outputs' := by
  intro msgs
  induction msgs with
  | nil =>
      intro outputs outputs' h
      cases h
  | cons msg rest ih =>
      intro outputs outputs' h
      rw [consume] at h
      rw [ownOutput]
      by_cases hown : r.own msg = true
      · rw [if_pos hown] at h ⊢
        rw [List.foldlM_cons]
        cases hhook : r.outputHook outputs msg with
        | error e =>
            rw [hhook] at h
            cases h
        | ok next =>
            rw [Fallible.ok_bind]
            simp only [hhook] at h
            cases hidle : Request.idle msg with
            | none =>
                rw [hidle] at h
                cases h
            | some idle =>
                rw [hidle] at h
                cases idle with
                | true =>
                    cases h
                    rfl
                | false => exact ih h
      · rw [if_neg hown] at h ⊢
        exact ih h

/-!
## Errors among the outputs
-/

theorem isError_replace (metadata data : Json) (o : Output) :
    (o.replace metadata data).isError = o.isError := by
  cases o <;> rfl

theorem isError_after (o : Output) (msg : KernelMsg) : (o.after msg).isError = o.isError := by
  unfold Output.after
  split
  · split
    · exact isError_replace _ _ o
    · rfl
  · rfl

theorem isError_settle (o : Output) : o.settle.isError = o.isError := by
  cases o <;> rfl

theorem any_settle (outputs : List Output) :
    (outputs.map Output.settle).any Output.isError = outputs.any Output.isError := by
  rw [List.any_map]
  exact congrArg outputs.any (funext isError_settle)

theorem of_isError (msg : KernelMsg) :
    (Output.of msg).toList.any Output.isError = decide (msg.msgType = "error") := by
  unfold Output.of
  split
  · next h => simp [h, Output.isError]
  split
  · next h => simp [h, Output.isError]
  split
  · next h => simp [h, Output.isError]
  split
  · next h => simp [h, Output.isError]
  · next h => simp [h]

theorem shown_isError (msgs : List KernelMsg) :
    (shown msgs).any Output.isError = msgs.any fun msg => msg.msgType = "error" := by
  induction msgs with
  | nil => rfl
  | cons msg rest ih =>
      have hlater : forall (msgs : List KernelMsg) (o : Output),
          (msgs.foldl Output.after o).isError = o.isError := by
        intro msgs
        induction msgs with
        | nil => exact fun o => rfl
        | cons next msgs ih => exact fun o => (ih _).trans (isError_after o next)
      rw [shown, List.any_append, ih, List.any_map, List.any_cons, ← of_isError]
      congr 2
      exact funext fun o => hlater rest o

/-- An output as `execute_code` returns it. -/
def Output.returned (streamed : Bool) (o : Output) : Output := if streamed then o else o.settle

theorem any_returned (streamed : Bool) (outputs : List Output) :
    (outputs.map (Output.returned streamed)).any Output.isError = outputs.any Output.isError := by
  rw [List.any_map]
  refine congrArg outputs.any (funext fun o => ?_)
  cases streamed with
  | true => rfl
  | false => exact isError_settle o

theorem executeCode_added {streamed : Bool} {reply : Json.Fields}
    (h : executeCode streamed outputs reply = .ok outputs') :
    exists added, outputs' = outputs.map (Output.returned streamed) ++ added ∧
      (forall o, o ∈ added -> o.isError = true) ∧
      added.length = if (reply.get "status").pyEq (.str "error") = true ∧
        outputs.any Output.isError = false then 1 else 0 := by
  have hsynthesized : forall (status : Json) (fields : Json.Fields) (outputs : List Output),
      (forall o, o ∈ synthesized status fields outputs -> o.isError = true) ∧
        (synthesized status fields outputs).length = if status.pyEq (.str "error") = true ∧
          outputs.any Output.isError = false then 1 else 0 := by
    intro status fields outputs
    unfold synthesized
    split
    · exact ⟨List.forall_mem_singleton.mpr rfl, rfl⟩
    · exact ⟨List.forall_mem_nil _, rfl⟩
  cases streamed with
  | true =>
      cases h
      rcases hsynthesized (reply.get "status") reply outputs with ⟨herrors, hlength⟩
      have hsame : outputs.map (Output.returned true) = outputs := List.map_id outputs
      exact ⟨_, by rw [hsame], herrors, hlength⟩
  | false =>
      rcases Fallible.bind_ok h with ⟨status, hstatus, h⟩
      cases h
      rcases hsynthesized status [] (outputs.map Output.settle) with ⟨herrors, hlength⟩
      rw [any_settle] at hlength
      rw [item_ok hstatus]
      exact ⟨_, rfl, herrors, hlength⟩

variable {s : State (List Output)} {msgId : String} {timed : Bool} {reply : KernelMsg}
  {result : List Output}

/-- A call that returns has gathered, however its messages came, the outputs that its own ones
after the last `clear_output` stand for. `execute_code` adds an error to them exactly where the
reply is one and none of these messages is, so an error is among its outputs exactly where one of
these messages or the reply is one. -/
theorem executeCode_errors (h : (machine (codeRequest display msgId timed) []).Reaches
      (Causal (codeRequest display msgId timed)) s)
    (hdone : s.point = .done (.returned reply))
    (hresult : executeCode display.isSome s.outputs reply.content = .ok result) :
    let msgs := afterClear (ownOutput (codeRequest display msgId timed) (s.came .iopub))
    let told := (reply.content.get "status").pyEq (.str "error") = true
    s.outputs = shown msgs ∧
      (result.any Output.isError = true <->
        (exists msg, msg ∈ msgs ∧ msg.msgType = "error") ∨ told) ∧
      exists added, result = s.outputs.map (Output.returned display.isSome) ++ added ∧
        (forall o, o ∈ added -> o.isError = true) ∧ added.length ≤ 1 ∧
        (added ≠ [] <-> told ∧ forall msg, msg ∈ msgs -> msg.msgType ≠ "error") := by
  intro msgs told
  have hfollows := Machine.reaches_invariant (fun _ => Follows.begins) follows_preserved h
  have hshown : s.outputs = shown msgs := gathered (consume_finished (hfollows.accounts hdone).left)
  have hany : s.outputs.any Output.isError = true <->
      exists msg, msg ∈ msgs ∧ msg.msgType = "error" := by
    rw [hshown, shown_isError, List.any_eq_true]
    simp only [decide_eq_true_eq]
  have hnone : s.outputs.any Output.isError = false <->
      forall msg, msg ∈ msgs -> msg.msgType ≠ "error" := by
    rw [← Bool.not_eq_true, hany]
    simp only [not_exists, not_and]
  rcases executeCode_added hresult with ⟨added, heq, herrors, hlength⟩
  have hadded : added ≠ [] <-> told ∧ s.outputs.any Output.isError = false := by
    rw [← List.length_pos_iff, hlength]
    split
    · next hgiven => exact iff_of_true Nat.zero_lt_one hgiven
    · next hgiven => exact iff_of_false (Nat.lt_irrefl 0) hgiven
  refine ⟨hshown, ?_, added, heq, herrors, ?_, hadded.trans (and_congr_right' hnone)⟩
  · have hsome : added.any Output.isError = true <-> added ≠ [] := by
      cases added with
      | nil => exact iff_of_false nofun fun h => h rfl
      | cons o rest =>
          refine iff_of_true ?_ (List.cons_ne_nil o rest)
          rw [List.any_cons, herrors o List.mem_cons_self, Bool.true_or]
    rw [heq, List.any_append, any_returned, Bool.or_eq_true, hsome, hadded, ← hany]
    cases s.outputs.any Output.isError with
    | true => exact iff_of_true (Or.inl rfl) (Or.inl rfl)
    | false => simp
  · rw [hlength]
    split
    · exact Nat.le_refl 1
    · exact Nat.zero_le 1

/-- A cell that calls `sys.exit(0)`: its messages, its reply, and the client's steps. -/
def exiting : List Action :=
  [.client, .client, .client,
    .put .iopub ⟨"error", some "m", [("ename", .str "SystemExit"), ("evalue", .str "0")]⟩, .set,
    .put .iopub ⟨"status", some "m", [("execution_state", .str "idle")]⟩, .set,
    .put .shell ⟨"execute_reply", some "m", [("status", .str "error")]⟩, .set,
    .client, .client, .client, .client, .client, .client, .client]

def unstarted : State (List Output) where
  queue _ := []
  came _ := []
  received := false
  connected := true
  outputs := []

theorem unstarted_begins : Begins (codeRequest none "m" false) [] unstarted :=
  ⟨rfl, rfl, rfl, fun _ hmem => by cases hmem⟩

theorem ok_of_toOption {alpha : Type} {x : Except HookError alpha} {a : alpha}
    (h : x.toOption = some a) : x = .ok a := by
  cases x with
  | error e => cases h
  | ok b => exact congrArg Except.ok (Option.some.inj h)

theorem exiting_returns : exists s reply outputs,
    (machine (codeRequest none "m" false) []).Reaches (Causal (codeRequest none "m" false)) s ∧
      s.point = .done (.returned reply) ∧ executeCode false s.outputs reply.content = .ok outputs ∧
        outputs.any Output.isError = true := by
  have hrun : ((machine (codeRequest none "m" false) []).exec unstarted exiting).bind (fun s =>
      s.point.answer.bind fun reply => (executeCode false s.outputs reply.content).toOption.map
        fun outputs => outputs.any Output.isError) = some true := by
    decide
  rcases Option.bind_eq_some_iff.mp hrun with ⟨s, hexec, hrun⟩
  rcases Option.bind_eq_some_iff.mp hrun with ⟨reply, hreply, hrun⟩
  rcases Option.map_eq_some_iff.mp hrun with ⟨outputs, houtputs, herror⟩
  have hguard : (machine (codeRequest none "m" false) []).Guarded
      (Causal (codeRequest none "m" false)) unstarted exiting := by
    decide
  exact ⟨s, reply, outputs, ⟨unstarted, exiting, unstarted_begins, hguard, hexec⟩,
    Point.answer_eq_some hreply, ok_of_toOption houtputs, herror⟩

theorem executeCode_errors_exiting : exists (s : State (List Output)) (reply : KernelMsg)
    (outputs : List Output),
    executeCode false s.outputs reply.content = .ok outputs ∧
      outputs.any Output.isError = true ∧
        ((exists msg, msg ∈ afterClear (ownOutput (codeRequest none "m" false) (s.came .iopub)) ∧
          msg.msgType = "error") ∨ (reply.content.get "status").pyEq (.str "error") = true) := by
  rcases exiting_returns with ⟨s, reply, outputs, hreach, hdone, hcoded, herror⟩
  exact ⟨s, reply, outputs, hcoded, herror,
    (@executeCode_errors none s "m" false reply outputs hreach hdone hcoded).right.left.mp herror⟩

end Kernel
end MightyColab
