import MightyColab.Job.NotFound

/-!
# Removing the transfer credentials

`JobTransport.remove` and its two callers that report a credential file as removed:
`_scrub_transfer_secret`, and `Orchestrator.cleanup_secret_channel`, which asks the
kernel as well. Both take a 404 to the confirming GET for proof of absence.
-/

namespace MightyColab
namespace Job

open Lib

namespace Transport

variable {w : World} {cfg : Config} {s s' : State}

def secretPath (jobId : String) : String :=
  s!"/content/jobs/{jobId}/mighty_runtime/.secrets/transfer.json"

/-- `_scrub_transfer_secret`: whether it is removed, and why not. -/
def scrubTransferSecret (w : World) (cfg : Config) (jobId : String) (s : State) :
    (Bool × Option String) × State :=
  match remove w cfg (secretPath jobId) s with
  | (.ok, s) => ((true, none), s)
  | (status, s) => ((false, some s!"removing it returned {status.name}"), s)

/-- What becomes of the kernel cell that unlinks the file and prints whether its
path still exists. -/
inductive Cell where
  /-- `_execute_code` raised. -/
  | raised (error : String)
  /-- The cell died of an exception of its own before it printed. -/
  | died
  | printed
  deriving DecidableEq, Repr

/-- The world of one `cleanup_secret_channel`: when the cell looks at the file and
what becomes of it, and whether `job_transport()` raises. -/
structure Cleanup where
  delay : Nat
  cell : Cell
  transportError : Option String

/-- The orchestrator's fields for the channel. -/
structure Channel where
  prepared : Bool
  session : Bool
  problem : Option String

/-- `"SECRET_CHANNEL_ABSENT=1" in output`, and the note if it was not. -/
def cellVerdict (w : World) (path : String) (time : Nat) : Cell -> Bool × String
  | .raised error => (false, s!"the kernel call failed ({error})")
  | .died => (false, "the kernel did not confirm it")
  | .printed => (decide (w.file path time = none), "the kernel did not confirm it")

/-- The Contents half: whether `remove` shows the file absent, and what it showed. -/
def contentsVerdict (w : World) (cfg : Config) (path : String)
    (transportError : Option String) (s : State) : (Bool × String) × State :=
  match transportError with
  | some error => ((false, s!"Contents removal failed ({error})"), s)
  | none =>
      match remove w cfg path s with
      | (status, s) =>
          ((decide (status = ReadStatus.ok ∨ status = ReadStatus.sessionLost),
            s!"Contents removal returned {status.name}"), s)

def cleanupSecretChannel (w : World) (cfg : Config) (jobId : String) (run : Cleanup)
    (channel : Channel) (s : State) : (Bool × Channel) × State :=
  if channel.prepared = false then ((true, channel), s)
  else if channel.session = false then
    ((false, { channel with problem := some "no session to reach the VM with" }), s)
  else
    let time := s.clock + run.delay
    let kernel := cellVerdict w (secretPath jobId) time run.cell
    let (contents, s) := contentsVerdict w cfg (secretPath jobId) run.transportError
      { s with clock := time }
    if kernel.1 || contents.1 then
      ((true, { channel with prepared := false, problem := none }), s)
    else
      ((false, { channel with problem := some s!"{kernel.2}; {contents.2}" }), s)

/-!
## What a confirmed removal rests on
-/

/-- No confirming GET of the call was answered by a 404 for its expired token while
the file was intact on a VM that is still assigned. -/
def NoFalseDenial (w : World) (path : String) (s : State) : Prop :=
  forall time, .answer .get path time true ∈ s.log ->
    w.file path time = none ∨ w.Gone s.clock

variable (w cfg) in
theorem deleteLoop_spec (path : String) (s : State) (hlog : NoDenial path s.log) :
    NoDenial path ((deleteAttempt w cfg path).run s).2.log ∧
      ((deleteAttempt w cfg path).run s).1 ≠ some .ok ∧
      (Honest w s -> ((deleteAttempt w cfg path).run s).1 = some .sessionLost ->
        w.Gone ((deleteAttempt w cfg path).run s).2.clock) := by
  refine (deleteAttempt w cfg path).loop.run_rule
    (fun _ t => NoDenial path t.log ∧ (Honest w s -> Honest w t))
    (fun r t => NoDenial path t.log ∧ r ≠ some .ok ∧
      (Honest w s -> r = some .sessionLost -> w.Gone t.clock))
    ?_ ?_ Budget.start s ⟨hlog, id⟩
  · intro b t next t' hinv hpass
    rcases deleteAttempt_spec hpass with ⟨hkeeps, hdenied, _, _⟩
    exact ⟨hdenied hinv.left, fun hs => hkeeps.left.honest (hinv.right hs)⟩
  · intro b t value t' hinv hpass
    rcases deleteAttempt_spec hpass with ⟨_, hdenied, hnotOk, hgone⟩
    refine ⟨hdenied hinv.left, fun h => hnotOk (by rw [h]; rfl), fun hs h => ?_⟩
    exact hgone (hinv.right hs) (by rw [h]; rfl)

/-- The last request of the call, and no other, was a GET of the path denied for its
expired token. -/
def EndsDenied (path : String) (log : List Event) : Prop :=
  exists time older, log = .answer .get path time true :: older ∧ NoDenial path older

variable (w cfg) in
theorem confirmLoop_spec (path : String) (s : State) (hlog : NoDenial path s.log) :
    let r := (confirmAttempt w cfg path).run s
    r.1 ≠ .sessionLost ∧
      ((r.1 = .ok ∧ EndsDenied path r.2.log) ∨
        (NoDenial path r.2.log ∧ (r.1 = .ok -> Removed w path r.2))) := by
  refine (confirmAttempt w cfg path).loop.run_rule
    (fun _ t => NoDenial path t.log)
    (fun r t => r ≠ .sessionLost ∧
      ((r = .ok ∧ EndsDenied path t.log) ∨
        (NoDenial path t.log ∧ (r = .ok -> Removed w path t))))
    ?_ ?_ Budget.start s hlog
  · intro b t next t' hinv hpass
    rcases (confirmAttempt_spec hpass).right with ⟨hturn, _⟩ | ⟨hdenied, _, _⟩
    · cases hturn
    · exact hdenied hinv
  · intro b t value t' hinv hpass
    rcases (confirmAttempt_spec hpass).right with
      ⟨hturn, time, _, hlog'⟩ | ⟨hdenied, hremoved, hlost⟩
    · cases hturn
      exact ⟨by simp, Or.inl ⟨rfl, time, t.log, hlog', hinv⟩⟩
    · exact ⟨fun h => hlost (by rw [h]; rfl),
        Or.inr ⟨hdenied hinv, fun h => hremoved (by rw [h]; rfl)⟩⟩

variable (w cfg) in
theorem remove_spec (path : String) (s : State) (hlog : NoDenial path s.log) :
    let r := remove w cfg path s
    ((r.1 = .ok ∧ EndsDenied path r.2.log) ∨
        (NoDenial path r.2.log ∧ (r.1 = .ok -> Removed w path r.2))) ∧
      (Honest w s -> r.1 = .sessionLost -> w.Gone r.2.clock) := by
  have hdelete := deleteLoop_spec w cfg path s hlog
  simp only [remove]
  rcases hd : (deleteAttempt w cfg path).run s with ⟨result, s1⟩
  rw [hd] at hdelete
  rcases hdelete with ⟨hdenied, hnotOk, hgone⟩
  cases result with
  | some status =>
      refine ⟨Or.inr ⟨hdenied, fun h => absurd (by rw [← h]) hnotOk⟩, fun hs h => ?_⟩
      exact hgone hs (by rw [← h])
  | none =>
      rcases confirmLoop_spec w cfg path s1 hdenied with ⟨hlost, hcases⟩
      exact ⟨hcases, fun _ h => absurd h hlost⟩

theorem removed_iff {path : String} {report : Prop}
    (hspec : (report ∧ EndsDenied path s.log) ∨
      (NoDenial path s.log ∧ (report -> Removed w path s))) :
    (report -> Removed w path s) <-> NoFalseDenial w path s := by
  rcases hspec with ⟨hreport, time, older, hlog, holder⟩ | ⟨hdenied, hremoved⟩
  · constructor
    · intro hright t hmem
      rcases hright hreport with hgone | ⟨t', expired, older', hlog', hfile⟩
      · exact Or.inr hgone
      · rw [hlog] at hlog' hmem
        cases hlog'
        rcases List.mem_cons.mp hmem with heq | hmem
        · cases heq
          exact Or.inl hfile
        · exact absurd hmem (holder t)
    · intro hfalse _
      rcases hfalse time (by rw [hlog]; simp) with hfile | hgone
      · exact Or.inr ⟨time, true, older, hlog, hfile⟩
      · exact Or.inl hgone
  · exact ⟨fun _ time hmem => absurd hmem (hdenied time), fun _ => hremoved⟩

theorem remove_iff (w : World) (cfg : Config) (path : String) (s : State) :
    ((remove w cfg path s.begin_).1 = .ok ->
        Removed w path (remove w cfg path s.begin_).2) <->
      NoFalseDenial w path (remove w cfg path s.begin_).2 :=
  removed_iff (remove_spec w cfg path s.begin_
    (by intro time hmem; cases hmem)).left

theorem scrub_eq (w : World) (cfg : Config) (jobId : String) (s : State) :
    ((scrubTransferSecret w cfg jobId s).1.1 = true <->
        (remove w cfg (secretPath jobId) s).1 = .ok) ∧
      (scrubTransferSecret w cfg jobId s).2 = (remove w cfg (secretPath jobId) s).2 := by
  unfold scrubTransferSecret
  rcases remove w cfg (secretPath jobId) s with ⟨status, s1⟩
  cases status <;> simp

/-- The cell has looked at the file, found nothing and printed so. -/
def CellSawNothing (w : World) (jobId : String) (run : Cleanup) (s : State) : Prop :=
  run.cell = .printed ∧ w.file (secretPath jobId) (s.clock + run.delay) = none

variable (w cfg) in
theorem contentsVerdict_spec (path : String) (transportError : Option String)
    (hlog : s.log = []) (hhonest : Honest w s) :
    let r := contentsVerdict w cfg path transportError s
    (r.1.1 = true ∧ EndsDenied path r.2.log) ∨
      (NoDenial path r.2.log ∧ (r.1.1 = true -> Removed w path r.2)) := by
  have hnone : NoDenial path s.log := by
    rw [hlog]
    intro time hmem
    cases hmem
  cases transportError with
  | some error => exact Or.inr ⟨hnone, by simp [contentsVerdict]⟩
  | none =>
      have hspec := remove_spec w cfg path s hnone
      simp only [contentsVerdict]
      rcases hremove : remove w cfg path s with ⟨status, s1⟩
      rw [hremove] at hspec
      rcases hspec with ⟨⟨hok, hdenied⟩ | ⟨hdenied, hremoved⟩, hlost⟩
      · exact Or.inl ⟨decide_eq_true (Or.inl hok), hdenied⟩
      · refine Or.inr ⟨hdenied, fun hreport => ?_⟩
        rcases of_decide_eq_true hreport with hok | hsession
        · exact hremoved hok
        · exact Or.inl (hlost hhonest hsession)

theorem cellVerdict_sawNothing {jobId : String} {run : Cleanup}
    (h : (cellVerdict w (secretPath jobId) (s.clock + run.delay) run.cell).1 = true) :
    CellSawNothing w jobId run s := by
  cases hcell : run.cell with
  | printed =>
      rw [hcell] at h
      exact ⟨hcell, of_decide_eq_true h⟩
  | raised error => rw [hcell] at h; cases h
  | died => rw [hcell] at h; cases h

theorem cleanup_iff {jobId : String} {run : Cleanup} {channel : Channel}
    (hprepared : channel.prepared = true) (hhonest : Honest w s) :
    let r := cleanupSecretChannel w cfg jobId run channel s.begin_
    (r.1.1 = true -> CellSawNothing w jobId run s ∨ Removed w (secretPath jobId) r.2) <->
      CellSawNothing w jobId run s ∨ NoFalseDenial w (secretPath jobId) r.2 := by
  by_cases hcell : CellSawNothing w jobId run s
  · exact ⟨fun _ => Or.inl hcell, fun _ _ => Or.inl hcell⟩
  have hkernel : (cellVerdict w (secretPath jobId) (s.clock + run.delay) run.cell).1
      = false := by
    by_contra hne
    exact hcell (cellVerdict_sawNothing (by simpa using hne))
  simp only [hcell, false_or, cleanupSecretChannel, hprepared, Bool.true_eq_false,
    if_false]
  by_cases hsession : channel.session = false
  · simp only [hsession, if_true]
    exact ⟨fun _ time hmem => (List.not_mem_nil hmem).elim, by simp⟩
  · have hcontents := contentsVerdict_spec w cfg (secretPath jobId) run.transportError
      (s := { s.begin_ with clock := s.clock + run.delay }) rfl
      (fun hp => (hhonest hp).mono (Nat.le_add_right _ _))
    have hclock : s.begin_.clock = s.clock := rfl
    simp only [hsession, hclock, hkernel, Bool.false_or]
    rcases hrun : contentsVerdict w cfg (secretPath jobId) run.transportError
      { s.begin_ with clock := s.clock + run.delay } with ⟨⟨absent, note⟩, s1⟩
    rw [hrun] at hcontents
    have hiff := removed_iff hcontents
    cases absent with
    | true => simpa using hiff
    | false => simpa using hiff

/-!
## Every state of a transport
-/

theorem honest_preserved (w : World) (cfg : Config) :
    (machine w cfg).Preserved Machine.Free (fun r => Honest w r.transport) := by
  intro r op next hinv _ hstep
  have hnext : r.next w cfg op = next := by simpa [machine] using hstep
  rw [← hnext]
  exact (perform_spec w cfg op r.transport).left.honest hinv

theorem honest_start (w : World) (cfg : Config) (r : Run)
    (h : (machine w cfg).start r) : Honest w r.transport := by
  rcases h with ⟨_, clock, tokenExpiry, session, hfresh⟩
  intro hp
  rw [hfresh] at hp
  cases hp

/-- After any operations on the transport: `remove`, and each of its two callers,
reports a removal rightly exactly when no confirming GET was answered by a 404 for
an expired token while the file was intact on a live VM. -/
theorem removal_confirmed_iff (w : World) (cfg : Config) {r : Run}
    (hreach : (machine w cfg).Reaches Machine.Free r) (path jobId : String)
    (run : Cleanup) (channel : Channel) :
    (((remove w cfg path r.transport.begin_).1 = .ok ->
        Removed w path (remove w cfg path r.transport.begin_).2) <->
      NoFalseDenial w path (remove w cfg path r.transport.begin_).2) ∧
    (((scrubTransferSecret w cfg jobId r.transport.begin_).1.1 = true ->
        Removed w (secretPath jobId)
          (scrubTransferSecret w cfg jobId r.transport.begin_).2) <->
      NoFalseDenial w (secretPath jobId)
        (scrubTransferSecret w cfg jobId r.transport.begin_).2) ∧
    (channel.prepared = true ->
      (((cleanupSecretChannel w cfg jobId run channel r.transport.begin_).1.1 = true ->
          CellSawNothing w jobId run r.transport ∨
          Removed w (secretPath jobId)
            (cleanupSecretChannel w cfg jobId run channel r.transport.begin_).2) <->
        CellSawNothing w jobId run r.transport ∨
        NoFalseDenial w (secretPath jobId)
          (cleanupSecretChannel w cfg jobId run channel r.transport.begin_).2)) := by
  have hhonest : Honest w r.transport :=
    Machine.reaches_invariant (honest_start w cfg) (honest_preserved w cfg) hreach
  refine ⟨remove_iff w cfg path r.transport, ?_, fun hprepared =>
    cleanup_iff hprepared hhonest⟩
  rcases scrub_eq w cfg jobId r.transport.begin_ with ⟨hreport, hstate⟩
  rw [hreport, hstate]
  exact remove_iff w cfg (secretPath jobId) r.transport

/-- A new transport whose token is good: the report follows what the VM holds. -/
theorem removal_confirmed_iff_fresh :
    (remove (oneFileVm "a" false) defaults "b"
        (State.fresh 100 200 ⟨"token", "url"⟩).begin_).1 = .ok ∧
      Removed (oneFileVm "a" false) "b" (remove (oneFileVm "a" false) defaults "b"
        (State.fresh 100 200 ⟨"token", "url"⟩).begin_).2 := by
  let r : Run := ⟨State.fresh 100 200 ⟨"token", "url"⟩, none⟩
  have hreach : (machine (oneFileVm "a" false) defaults).Reaches Machine.Free r :=
    ⟨r, [], ⟨rfl, 100, 200, _, rfl⟩, trivial, rfl⟩
  have hlog : (remove (oneFileVm "a" false) defaults "b" r.transport.begin_).2.log =
      [.answer .get "b" 102 false, .answer .delete "b" 101 false] := rfl
  have hiff := (removal_confirmed_iff (oneFileVm "a" false) defaults hreach "b" "job"
    ⟨0, .printed, none⟩ ⟨true, true, none⟩).left
  refine ⟨rfl, hiff.mpr ?_ rfl⟩
  intro time hmem
  rw [hlog] at hmem
  simp at hmem

/-- An expired token: DELETE and GET are both answered 404, the file stays on the
live VM, and `remove` and `_scrub_transfer_secret` report it removed. -/
theorem removal_not_confirmed :
    exists (w : World) (cfg : Config) (r : Run) (jobId : String),
      (machine w cfg).Reaches Machine.Free r ∧
      (remove w cfg (secretPath jobId) r.transport.begin_).1 = .ok ∧
      (scrubTransferSecret w cfg jobId r.transport.begin_).1.1 = true ∧
      (forall time, w.file (secretPath jobId) time ≠ none ∧ ¬w.Gone time) ∧
      ¬Removed w (secretPath jobId)
        (remove w cfg (secretPath jobId) r.transport.begin_).2 := by
  let r : Run := ⟨State.fresh 100 50 ⟨"token", "url"⟩, none⟩
  have hintact : forall time, (oneFileVm (secretPath "j") false).file
      (secretPath "j") time ≠ none ∧ ¬(oneFileVm (secretPath "j") false).Gone time := by
    intro time
    refine ⟨by simp [oneFileVm], ?_⟩
    rintro ⟨gone, hgone, _⟩
    cases hgone
  refine ⟨oneFileVm (secretPath "j") false, defaults, r, "j",
    ⟨r, [], ⟨rfl, 100, 50, _, rfl⟩, trivial, rfl⟩, rfl, rfl, hintact, ?_⟩
  rintro (hgone | ⟨time, _, _, _, hfile⟩)
  · exact (hintact _).right hgone
  · exact (hintact time).left hfile

end Transport
end Job
end MightyColab
