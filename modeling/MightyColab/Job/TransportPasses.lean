import MightyColab.Job.TransportSteps

/-!
# One pass of each transport operation

What one pass of an operation's retry loop does to the clock, the token, the
refresh stamp and the log of the call, said once for each operation. What holds of
whole operations, and of runs of them, rests on these.
-/

namespace MightyColab
namespace Job

open Lib

namespace Transport

variable {w : World} {cfg : Config} {s s' : State}

/-!
## Reading
-/

/-- What one pass of `_read` can do: retry, go round with a new token, report
NOT_FOUND for the 404 just answered, or leave with something else. -/
theorem readAttempt_cases {path : String} {b : Budget}
    {turn : Turn (Budget.measure cfg) b (Json × ReadStatus)}
    (h : readAttempt w cfg path b s = (turn, s')) :
    (exists next more, turn = .again next ∧ Passes w s s' ∧
      next.val.refreshAttempted = b.refreshAttempted ∧ s'.log = more ++ s.log) ∨
    (exists next code older, turn = .again next ∧ Advances w s s' ∧
      s'.log = .refresh code .ok :: older ∧
      s'.clock + cfg.notFoundRefreshInterval ≤ s'.tokenExpiry ∧
      (s'.last404RefreshAt = s.last404RefreshAt ∨
        s'.last404RefreshAt = some s'.clock)) ∨
    (exists value time expired, turn = .leave (value, .notFound) ∧ Passes w s s' ∧
      s'.log = .answer .get path time expired :: s.log ∧ time ≤ s'.clock ∧
      (expired = true -> s.tokenExpiry ≤ time) ∧
      (expired = false -> w.file path time = none) ∧
      (b.refreshAttempted = true ∨ shouldRefresh404 cfg s' = false)) ∨
    (exists value status, turn = .leave (value, status) ∧ Passes w s s' ∧
      status ≠ .notFound) := by
  rcases hreq : request w .get path s with ⟨r, s1⟩
  rcases request_cases hreq with ⟨hfirst, hanswer⟩
  simp only [readAttempt, hreq] at h
  cases r with
  | ok payload =>
      rcases hdec : decodeContentsPayload w payload path s1 with ⟨⟨value, status⟩, s2⟩
      have hdecoded := decodeContentsPayload_spec hdec
      simp only [hdec] at h
      cases h
      exact Or.inr (Or.inr (Or.inr ⟨value, status, rfl, hfirst.trans hdecoded.left,
        hdecoded.right.right⟩))
  | error e =>
      have hmissing : e.statusCode = some 404 ->
          exists time expired, s1.log = .answer .get path time expired :: s.log ∧
            time ≤ s1.clock ∧ (expired = true -> s.tokenExpiry ≤ time) ∧
            (expired = false -> w.file path time = none) := by
        intro hcode
        grind [World.serve]
      simp only at h
      split at h
      next hrefresh =>
        split at h
        next hskip =>
          cases h
          rcases hmissing hskip.left with ⟨time, expired, hlog, hle, hexp, habsent⟩
          exact Or.inr (Or.inr (Or.inl ⟨_, time, expired, rfl, hfirst, hlog, hle, hexp,
            habsent, Or.inr hskip.right⟩))
        next =>
          rcases href : refreshToken w cfg e.statusCode s1 with ⟨status, s2⟩
          rcases refreshToken_spec href with
            ⟨hadvances, hlog, hstamp, hnever, hnew, _, _⟩
          have hboth := hfirst.toAdvances.trans hadvances
          have hkept : status ≠ .ok -> Passes w s s2 := fun hne =>
            hfirst.trans (refreshToken_passes href hne)
          rw [href] at h
          cases status with
          | ok =>
              have hstamped : forall t, s2.clock = t -> Advances w s
                  { s2 with last404RefreshAt := some t } :=
                fun t _ => ⟨hboth.clock, hboth.honest⟩
              have hfresh := hnew rfl
              have hsame := hfirst.stamp
              right; left
              simp only at h
              cases h
              refine ⟨_, e.statusCode, s1.log, rfl, ?_, ?_, ?_, ?_⟩ <;> grind
          | sessionLost =>
              cases h
              exact Or.inr (Or.inr (Or.inr ⟨_, _, rfl,
                (hkept (by simp)).trans (problem_passes w s2 _), by simp⟩))
          | degraded =>
              cases h
              exact Or.inr (Or.inr (Or.inr ⟨_, _, rfl,
                (hkept (by simp)).trans (problem_passes w s2 _), by simp⟩))
          | notFound => exact absurd rfl hnever
      next hrefresh =>
        rcases retryOr_cases h with ⟨next, hturn, hflag, hs⟩ | hgive
        · rw [hs]
          left
          rcases request_log hreq with ⟨more, hmore⟩
          exact ⟨next, _, hturn, hfirst.trans (sleep_passes w cfg _ s1), hflag,
            by rw [State.sleep, hmore]; exact (List.cons_append ..).symm⟩
        · split at hgive
          next hleave =>
            cases hgive
            rcases hmissing hleave.left with ⟨time, expired, hlog, hle, hexp, habsent⟩
            exact Or.inr (Or.inr (Or.inl ⟨_, time, expired, rfl, hfirst, hlog, hle, hexp,
              habsent, Or.inl hleave.right⟩))
          next =>
            rcases hclass : classifyEndpoint w
              (s1.problem s!"{path}: {e.text}{retriesNote b.transientRetries}")
              with ⟨status, s2⟩
            have hspec := classifyEndpoint_spec hclass
            simp only [hclass] at hgive
            cases hgive
            refine Or.inr (Or.inr (Or.inr ⟨_, status, rfl,
              (hfirst.trans (problem_passes w s1 _)).trans hspec.left, ?_⟩))
            rcases hspec.right.right.left with hstatus | hstatus <;> simp [hstatus]

/-!
## Writing

A write stamps the refresh time before it knows that the refresh succeeded. The
stamp is backed when a token at least as young is held.
-/

/-- The refresh stamp never outlives the token: until a full interval after it,
the token held is accepted. -/
def Backed (cfg : Config) (s : State) : Prop :=
  forall stamp, s.last404RefreshAt = some stamp ->
    stamp ≤ s.clock ∧ stamp + cfg.notFoundRefreshInterval ≤ s.tokenExpiry

theorem Backed.of_passes (h : Backed cfg s) (hpasses : Passes w s s') :
    Backed cfg s' := by
  intro stamp hstamp
  rw [hpasses.stamp] at hstamp
  rcases h stamp hstamp with ⟨hle, hlive⟩
  rw [hpasses.token]
  exact ⟨Nat.le_trans hle hpasses.clock, hlive⟩

theorem Backed.of_fresh (h : Backed cfg s)
    (hfresh : s'.clock + cfg.notFoundRefreshInterval ≤ s'.tokenExpiry)
    (hclock : s.clock ≤ s'.clock)
    (hstamp : forall stamp, s'.last404RefreshAt = some stamp ->
      s.last404RefreshAt = some stamp ∨ stamp ≤ s'.clock) : Backed cfg s' := by
  intro stamp hs
  rcases hstamp stamp hs with hold | hle
  · have hbefore := (h stamp hold).left
    omega
  · omega

theorem stampBefore_advances (w : World) (e : Error) (stamps : Bool) (s : State) :
    Advances w s (stampBefore e stamps s) := by
  unfold stampBefore
  split
  · exact ⟨Nat.le_refl _, id⟩
  · exact Advances.refl w s

theorem stampBefore_refresh {e : Error} {stamps : Bool} {status : ReadStatus}
    (h : refreshToken w cfg e.statusCode (stampBefore e stamps s) = (status, s')) :
    Advances w s s' ∧ status ≠ .notFound ∧
      ((Backed cfg s -> Backed cfg s') ∨
        (stamps = true ∧ status ≠ .ok ∧
          exists older, s'.log = .refresh (some 404) status :: older)) := by
  rcases refreshToken_spec h with ⟨hadvances, hlog, hstamp, hnever, hnew, _, _⟩
  have hboth := (stampBefore_advances w e stamps s).trans hadvances
  refine ⟨hboth, hnever, ?_⟩
  by_cases hok : status = .ok
  · left
    intro hbacked
    refine hbacked.of_fresh (hnew hok) hboth.clock ?_
    intro stamp hs
    have hle := hboth.clock
    rw [hstamp] at hs
    unfold stampBefore at hs
    split at hs
    · right
      have : s.clock = stamp := by simpa using hs
      omega
    · exact Or.inl hs
  · by_cases hcode : stamps ∧ e.statusCode = some 404
    · exact Or.inr ⟨hcode.left, hok, _, by rw [hlog, hcode.right]⟩
    · left
      have hsame : stampBefore e stamps s = s := by
        unfold stampBefore
        exact if_neg hcode
      rw [hsame] at h
      exact fun hbacked => hbacked.of_passes (refreshToken_passes h hok)

theorem refreshToken_backed {code : Option Nat} {status : ReadStatus}
    (h : refreshToken w cfg code s = (status, s')) :
    Advances w s s' ∧ status ≠ .notFound ∧ (Backed cfg s -> Backed cfg s') := by
  rcases refreshToken_spec h with ⟨hadvances, _, hstamp, hnever, hnew, _, _⟩
  refine ⟨hadvances, hnever, fun hbacked => ?_⟩
  by_cases hok : status = .ok
  · refine hbacked.of_fresh (hnew hok) hadvances.clock ?_
    intro stamp hs
    exact Or.inl (by rw [← hstamp, hs])
  · exact hbacked.of_passes (refreshToken_passes h hok)

/-- What a pass of a writing operation keeps: the stamp stays backed, or it leaves
right after a refresh that failed. -/
def KeepsStamp (w : World) (cfg : Config) (stamps : Bool) {b : Budget} {result : Type}
    (s : State) (turn : Turn (Budget.measure cfg) b result) (s' : State) : Prop :=
  Advances w s s' ∧
    ((Backed cfg s -> Backed cfg s') ∨
      (stamps = true ∧ exists value status older, turn = .leave value ∧ status ≠ .ok ∧
        s'.log = .refresh (some 404) status :: older))

theorem KeepsStamp.of_passes {stamps : Bool} {b : Budget} {result : Type}
    {turn : Turn (Budget.measure cfg) b result} (h : Passes w s s') :
    KeepsStamp w cfg stamps s turn s' :=
  ⟨h.toAdvances, Or.inl fun hbacked => hbacked.of_passes h⟩

theorem retryOr_keepsStamp {stamps : Bool} {b : Budget} {result : Type} {e : Error}
    {giveUp : State -> Turn (Budget.measure cfg) b result × State}
    {turn : Turn (Budget.measure cfg) b result} {s0 : State}
    (hgiveUp : forall turn s', giveUp s = (turn, s') -> Passes w s s')
    (hbefore : Passes w s0 s) (h : retryOr b e giveUp s = (turn, s')) :
    KeepsStamp w cfg stamps s0 turn s' := by
  rcases retryOr_cases h with ⟨_, _, _, hs⟩ | hgive
  · rw [hs]
    exact KeepsStamp.of_passes (hbefore.trans (sleep_passes w cfg _ s))
  · exact KeepsStamp.of_passes (hbefore.trans (hgiveUp turn s' hgive))

theorem writeAttempt_keepsStamp {path payload : String} {b : Budget}
    {turn : Turn (Budget.measure cfg) b ReadStatus}
    (h : writeAttempt w cfg path payload b s = (turn, s')) :
    KeepsStamp w cfg true s turn s' := by
  rcases hsend : contentsUpload w path (chunkCount payload.utf8ByteSize) s with ⟨r, s1⟩
  have hfirst : Passes w s s1 := by
    have := contentsUpload_passes w path (chunkCount payload.utf8ByteSize) s
    rwa [hsend] at this
  simp only [writeAttempt, hsend] at h
  cases r with
  | ok _ =>
      cases h
      exact KeepsStamp.of_passes hfirst
  | error e =>
      simp only at h
      split at h
      next hrefresh =>
        rcases href : refreshToken w cfg e.statusCode (stampBefore e true s1)
          with ⟨status, s2⟩
        rcases stampBefore_refresh href with ⟨hadvances, hnever, hbacked⟩
        have hall : Advances w s s2 := hfirst.toAdvances.trans hadvances
        rw [href] at h
        refine ⟨?_, ?_⟩
        · cases status <;> grind
        · rcases hbacked with hbacked | ⟨_, hne, older, hlog⟩
          · left
            intro hs
            have := hbacked (hs.of_passes hfirst)
            cases status <;> grind
          · right
            refine ⟨rfl, ?_⟩
            cases status <;> grind
      next hrefresh =>
        have hgive : forall s2 (turn : Turn (Budget.measure cfg) b ReadStatus) s3,
            (if e.statusCode = some 404 ∧ b.refreshAttempted = true then
              (Turn.leave .notFound, s2)
            else (Turn.leave (classifyEndpoint w s2).1, (classifyEndpoint w s2).2)) = (turn, s3) ->
            Passes w s2 s3 := by
          intro s2 turn s3 hturn
          rcases hclass : classifyEndpoint w s2 with ⟨status, s4⟩
          have hspec := (classifyEndpoint_spec hclass).left
          have hrefl := Passes.refl w s2
          grind
        split at h
        next htimeout =>
          have hconfirm := hfirst.trans (confirmText_passes w path payload s1)
          rcases hc : confirmText w path payload s1 with ⟨confirmed, s2⟩
          rw [hc] at h hconfirm
          rcases confirmed with _ | _ | _
          · cases h
            exact KeepsStamp.of_passes hconfirm
          · exact retryOr_keepsStamp (hgive s2) hconfirm h
          · cases h
            exact KeepsStamp.of_passes hconfirm
        next => exact retryOr_keepsStamp (hgive s1) hfirst h

theorem sendAttempt_keepsStamp {stamps : Bool}
    {send : State -> Except Error Unit × State}
    {confirm : State -> Option Bool × State} {what : String}
    (hsends : forall s, Passes w s (send s).2)
    (hconfirms : forall s, Passes w s (confirm s).2) {b : Budget}
    {turn : Turn (Budget.measure cfg) b (Except TransportError Unit)}
    (h : sendAttempt w cfg stamps send confirm what b s = (turn, s')) :
    KeepsStamp w cfg stamps s turn s' := by
  rcases hsend : send s with ⟨r, s1⟩
  have hfirst : Passes w s s1 := by
    have := hsends s
    rwa [hsend] at this
  simp only [sendAttempt, hsend] at h
  cases r with
  | ok _ =>
      cases h
      exact KeepsStamp.of_passes hfirst
  | error e =>
      simp only at h
      split at h
      next hrefresh =>
        rcases href : refreshToken w cfg e.statusCode (stampBefore e stamps s1)
          with ⟨status, s2⟩
        rcases stampBefore_refresh href with ⟨hadvances, hnever, hbacked⟩
        have hall : Advances w s s2 := hfirst.toAdvances.trans hadvances
        rw [href] at h
        refine ⟨?_, ?_⟩
        · cases status <;> grind
        · rcases hbacked with hbacked | ⟨hstamps, hne, older, hlog⟩
          · left
            intro hs
            have := hbacked (hs.of_passes hfirst)
            cases status <;> grind
          · right
            refine ⟨hstamps, ?_⟩
            cases status <;> grind
      next hrefresh =>
        have hgive : forall s2 (turn : Turn (Budget.measure cfg) b
            (Except TransportError Unit)) s3,
            (Turn.leave (.error ⟨(classifyEndpoint w s2).1, failed what e b.transientRetries ""⟩),
              (classifyEndpoint w s2).2) = (turn, s3) ->
            Passes w s2 s3 := by
          intro s2 turn s3 hturn
          rcases hclass : classifyEndpoint w s2 with ⟨status, s4⟩
          have hspec := (classifyEndpoint_spec hclass).left
          grind
        split at h
        next htimeout =>
          have hconfirm := hfirst.trans (hconfirms s1)
          rcases hc : confirm s1 with ⟨confirmed, s2⟩
          rw [hc] at h hconfirm
          rcases confirmed with _ | _ | _
          · cases h
            exact KeepsStamp.of_passes hconfirm
          · exact retryOr_keepsStamp (hgive s2) hconfirm h
          · cases h
            exact KeepsStamp.of_passes hconfirm
        next => exact retryOr_keepsStamp (hgive s1) hfirst h

/-- A writing operation keeps the stamp backed, unless its refresh after a 404
failed. -/
theorem Attempts.run_keepsStamp {stamps : Bool} {result : Type}
    (body : Attempts cfg result)
    (hbody : forall b s turn s', body b s = (turn, s') ->
      KeepsStamp w cfg stamps s turn s') (s : State) :
    Advances w s (body.run s).2 ∧
      ((Backed cfg s -> Backed cfg (body.run s).2) ∨
        (stamps = true ∧ exists status older, status ≠ .ok ∧
          (body.run s).2.log = .refresh (some 404) status :: older)) := by
  refine body.loop.run_rule
    (fun _ t => Advances w s t ∧ (Backed cfg s -> Backed cfg t))
    (fun _ t => Advances w s t ∧ ((Backed cfg s -> Backed cfg t) ∨
      (stamps = true ∧ exists status older, status ≠ .ok ∧
        t.log = .refresh (some 404) status :: older)))
    ?_ ?_ Budget.start s ⟨Advances.refl w s, id⟩
  · intro b t next t' hinv hpass
    rcases hbody b t (.again next) t' hpass with ⟨hadvances, hkeeps | ⟨_, _, _, _, h, _⟩⟩
    · exact ⟨hinv.left.trans hadvances, fun hs => hkeeps (hinv.right hs)⟩
    · cases h
  · intro b t value t' hinv hpass
    rcases hbody b t (.leave value) t' hpass with
      ⟨hadvances, hkeeps | ⟨hstamps, _, status, older, _, hne, hlog⟩⟩
    · exact ⟨hinv.left.trans hadvances, Or.inl fun hs => hkeeps (hinv.right hs)⟩
    · exact ⟨hinv.left.trans hadvances, Or.inr ⟨hstamps, status, older, hne, hlog⟩⟩

/-!
## Removing
-/

def NoDenial (path : String) (log : List Event) : Prop :=
  forall time, Event.answer .get path time true ∉ log

theorem request_noDenial {method : Method} {path : String} {r : Except Error Json}
    (h : request w method path s = (r, s'))
    (hr : method ≠ .get ∨ forall e, r = .error e -> e.statusCode ≠ some 404)
    (hlog : NoDenial path s.log) : NoDenial path s'.log := by
  rcases (request_cases h).right with ⟨hsame, _⟩ | ⟨time, expired, hmore, _, _, _, hwhy⟩
  · rw [hsame]
    exact hlog
  · intro t hmem
    rw [hmore] at hmem
    rcases List.mem_cons.mp hmem with heq | hmem
    · injection heq with hmethod _ _ hexpired
      rcases hr with hr | hr
      · exact hr hmethod.symm
      · rcases hwhy with ⟨_, e, he, hcause⟩ | ⟨hf, _⟩ | ⟨hf, _⟩ | ⟨hf, _⟩
        · exact hr e he (statusCode_of_notFound hcause)
        · rw [hf] at hexpired
          cases hexpired
        · rw [hf] at hexpired
          cases hexpired
        · rw [hf] at hexpired
          cases hexpired
    · exact hlog t hmem

theorem refreshToken_noDenial {code : Option Nat} {status : ReadStatus} {path : String}
    (h : refreshToken w cfg code s = (status, s')) (hlog : NoDenial path s.log) :
    NoDenial path s'.log := by
  intro t hmem
  rw [(refreshToken_spec h).right.left] at hmem
  rcases List.mem_cons.mp hmem with heq | hmem
  · cases heq
  · exact hlog t hmem

theorem sleep_noDenial {path : String} (n : Nat) (hlog : NoDenial path s.log) :
    NoDenial path (s.sleep cfg n).log := by
  intro t hmem
  rcases List.mem_cons.mp hmem with heq | hmem
  · cases heq
  · exact hlog t hmem

theorem deleteAttempt_spec {path : String} {b : Budget}
    {turn : Turn (Budget.measure cfg) b (Option ReadStatus)}
    (h : deleteAttempt w cfg path b s = (turn, s')) :
    KeepsStamp w cfg false s turn s' ∧
      (NoDenial path s.log -> NoDenial path s'.log) ∧
      turn ≠ .leave (some .ok) ∧
      (Honest w s -> turn = .leave (some .sessionLost) -> w.Gone s'.clock) := by
  rcases hreq : request w .delete path s with ⟨r, s1⟩
  have hfirst := (request_cases hreq).left
  have hdenied : NoDenial path s.log -> NoDenial path s1.log :=
    request_noDenial hreq (Or.inl (by simp))
  simp only [deleteAttempt, hreq] at h
  cases r with
  | ok _ =>
      cases h
      exact ⟨KeepsStamp.of_passes hfirst, hdenied, by simp, by simp⟩
  | error e =>
      simp only at h
      split at h
      next =>
        cases h
        exact ⟨KeepsStamp.of_passes hfirst, hdenied, by simp, by simp⟩
      next =>
        split at h
        next hrefresh =>
          rcases href : refreshToken w cfg e.statusCode s1 with ⟨status, s2⟩
          have hkeeps := refreshToken_backed href
          have hlog := fun hs => refreshToken_noDenial href (hdenied hs)
          have hall : Advances w s s2 := hfirst.toAdvances.trans hkeeps.left
          have hbacked : Backed cfg s -> Backed cfg s2 :=
            fun hs => hkeeps.right.right (hs.of_passes hfirst)
          have hgone := (refreshToken_spec href).right.right.right.right.right.right
          rw [href] at h
          refine ⟨⟨?_, Or.inl ?_⟩, ?_, ?_, ?_⟩ <;> cases status <;> grind
        next hrefresh =>
          rcases retryOr_cases h with ⟨next, hturn, _, hs⟩ | hgive
          · rw [hs, hturn]
            exact ⟨KeepsStamp.of_passes (hfirst.trans (sleep_passes w cfg _ s1)),
              fun hs => sleep_noDenial _ (hdenied hs), by simp, by simp⟩
          · rcases hclass : classifyEndpoint w s1 with ⟨status, s2⟩
            have hspec := classifyEndpoint_spec hclass
            simp only [hclass] at hgive
            cases hgive
            refine ⟨KeepsStamp.of_passes (hfirst.trans hspec.left), ?_, ?_, ?_⟩
            · rw [hspec.right.left]
              exact hdenied
            · rcases hspec.right.right.left with hstatus | hstatus <;> simp [hstatus]
            · intro hs hturn
              exact hspec.right.right.right (hfirst.honest hs) (by simpa using hturn)

/-- The path was absent when the call's last request was answered, or the
assignment is gone. -/
def Removed (w : World) (path : String) (s : State) : Prop :=
  w.Gone s.clock ∨
    exists time expired older,
      s.log = .answer .get path time expired :: older ∧ w.file path time = none

/-- What one pass of the confirming loop can do. Its OK is a 404 to its GET, which
is no proof when the token had expired, or a listing without the endpoint. -/
theorem confirmAttempt_spec {path : String} {b : Budget}
    {turn : Turn (Budget.measure cfg) b ReadStatus}
    (h : confirmAttempt w cfg path b s = (turn, s')) :
    KeepsStamp w cfg false s turn s' ∧
      ((turn = .leave .ok ∧ exists time, time ≤ s'.clock ∧
          s'.log = .answer .get path time true :: s.log) ∨
        ((NoDenial path s.log -> NoDenial path s'.log) ∧
          (turn = .leave .ok -> Removed w path s') ∧
          turn ≠ .leave .sessionLost)) := by
  rcases hreq : request w .get path s with ⟨r, s1⟩
  rcases request_cases hreq with ⟨hfirst, hanswer⟩
  simp only [confirmAttempt, hreq] at h
  cases r with
  | ok _ =>
      cases h
      exact ⟨KeepsStamp.of_passes hfirst,
        Or.inr ⟨request_noDenial hreq (Or.inr (by simp)), by simp, by simp⟩⟩
  | error e =>
      simp only at h
      split at h
      next hmissing =>
        cases h
        refine ⟨KeepsStamp.of_passes hfirst, ?_⟩
        have hcode := statusCode_of_notFound hmissing
        rcases hanswer with ⟨_, e', he, hne⟩ |
          ⟨time, expired, hlog, _, hle, _, ⟨htrue, _⟩ | ⟨hfalse, habsent, _⟩ |
            ⟨_, e', he, hne⟩ | ⟨_, v, hv⟩⟩
        · cases he
          exact absurd hcode hne
        · rw [htrue] at hlog
          exact Or.inl ⟨rfl, time, hle, hlog⟩
        · refine Or.inr ⟨?_, fun _ => Or.inr ⟨time, expired, _, hlog, habsent⟩, by simp⟩
          intro hs t hmem
          rw [hlog, hfalse] at hmem
          rcases List.mem_cons.mp hmem with heq | hmem
          · cases heq
          · exact hs t hmem
        · cases he
          exact absurd hcode hne
        · cases hv
      next hfound =>
        -- a 404 is always FileNotFoundError, so this error is another status
        have hcode : e.statusCode ≠ some 404 := by
          rcases hanswer with ⟨_, e', he, hne⟩ |
            ⟨time, expired, hlog, _, hle, _, ⟨_, e', he, hcause⟩ |
              ⟨_, _, e', he, hcause⟩ | ⟨_, e', he, hne⟩ | ⟨_, v, hv⟩⟩
          · cases he
            exact hne
          · cases he
            exact absurd hcause hfound
          · cases he
            exact absurd hcause hfound
          · cases he
            exact hne
          · cases hv
        have hdenied : NoDenial path s.log -> NoDenial path s1.log :=
          request_noDenial hreq (Or.inr fun e' he => by cases he; exact hcode)
        split at h
        next hrefresh =>
          rcases href : refreshToken w cfg e.statusCode s1 with ⟨status, s2⟩
          have hkeeps := refreshToken_backed href
          have hlog := fun hs => refreshToken_noDenial href (hdenied hs)
          have hgone : status = .sessionLost -> Removed w path s2 :=
            fun hs => Or.inl ((refreshToken_spec href).right.right.right.right.right.right hs)
          have hall : Advances w s s2 := hfirst.toAdvances.trans hkeeps.left
          have hbacked : Backed cfg s -> Backed cfg s2 :=
            fun hs => hkeeps.right.right (hs.of_passes hfirst)
          rw [href] at h
          refine ⟨⟨?_, Or.inl ?_⟩, Or.inr ⟨?_, ?_, ?_⟩⟩ <;> cases status <;> grind
        next hrefresh =>
          rcases retryOr_cases h with ⟨next, hturn, _, hs⟩ | hgive
          · rw [hs, hturn]
            exact ⟨KeepsStamp.of_passes (hfirst.trans (sleep_passes w cfg _ s1)),
              Or.inr ⟨fun hs => sleep_noDenial _ (hdenied hs), by simp, by simp⟩⟩
          · cases hgive
            exact ⟨KeepsStamp.of_passes hfirst, Or.inr ⟨hdenied, by simp, by simp⟩⟩

end Transport
end Job
end MightyColab
