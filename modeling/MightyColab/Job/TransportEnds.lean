import MightyColab.Job.TransportBounds

/-!
# Transport operations end, and classify honestly

What one pass of each loop spends, what a loop spends, and what every call on a transport
comes to after any calls before it.
-/

namespace MightyColab
namespace Job

open Lib

namespace Transport

variable {v : Server} {cfg : Config} {result : Type} {s s' : State}

/-!
## Passes
-/

/-- A pass with at most `n` requests. It goes round again with a token just refreshed, which it
does once, or after a retry of those that are left; a result `lost` stands for a lost session. -/
def Within (v : Server) (n : Nat) (lost : result -> Prop) (b : Budget) (s : State) :
    Turn (Budget.measure cfg) b result × State -> Prop
  | (.again next, s') =>
      (Spends v n 1 0 s s' ∧ b.refreshAttempted = false ∧ next.val.refreshAttempted = true ∧
        next.val.transientRetries = b.transientRetries) ∨
      (Spends v n 0 1 s s' ∧ next.val.refreshAttempted = b.refreshAttempted ∧
        next.val.transientRetries = b.transientRetries + 1 ∧
        b.transientRetries < cfg.maxRetries)
  | (.leave value, s') =>
      Spends v n (if b.refreshAttempted then 0 else 1) 0 s s' ∧
        (Informed v s -> lost value -> LastListingLacks v s')

variable {b : Budget} {lost : result -> Prop} {n m : Nat}
  {out : Turn (Budget.measure cfg) b result × State}

theorem Within.after (hfirst : Spends v m 0 0 s s') (h : Within v n lost b s' out) :
    Within v (m + n) lost b s out := by
  rcases out with ⟨next | value, t⟩
  · rcases h with ⟨hspends, h⟩ | ⟨hspends, h⟩
    · refine Or.inl ⟨?_, h⟩
      rw [← Nat.zero_add 1, ← Nat.zero_add 0]
      exact hfirst.trans hspends
    · refine Or.inr ⟨?_, h⟩
      rw [← Nat.zero_add 1, ← Nat.zero_add 0]
      exact hfirst.trans hspends
  · refine ⟨?_, fun hs => h.right (hfirst.informed hs)⟩
    have hboth := hfirst.trans h.left
    rw [Nat.zero_add, Nat.zero_add] at hboth
    exact hboth

theorem Within.mono (h : Within v n lost b s out) (hle : n ≤ m) : Within v m lost b s out := by
  rcases out with ⟨next | value, t⟩
  · rcases h with ⟨hspends, h⟩ | ⟨hspends, h⟩
    · exact Or.inl ⟨hspends.mono hle (Nat.le_refl _) (Nat.le_refl _), h⟩
    · exact Or.inr ⟨hspends.mono hle (Nat.le_refl _) (Nat.le_refl _), h⟩
  · exact ⟨h.left.mono hle (Nat.le_refl _) (Nat.le_refl _), h.right⟩

theorem within_leave {value : result} (h : Spends v n 0 0 s s') (hlost : ¬ lost value) :
    Within v n lost b s ((.leave value, s') : Turn (Budget.measure cfg) b result × State) :=
  ⟨h.mono (Nat.le_refl _) (Nat.zero_le _) (Nat.le_refl _), fun _ h => absurd h hlost⟩

theorem within_refreshed {value : result} (h : Spends v n 1 0 s s')
    (hb : b.refreshAttempted = false) (hlost : lost value -> LastListingLacks v s') :
    Within v n lost b s ((.leave value, s') : Turn (Budget.measure cfg) b result × State) := by
  refine ⟨?_, fun _ => hlost⟩
  rw [hb]
  exact h

theorem within_again (h : Spends v n 1 0 s s') (hb : b.refreshAttempted = false) :
    Within v n lost b s
      ((.again (b.refresh cfg hb), s') : Turn (Budget.measure cfg) b result × State) :=
  Or.inl ⟨h, hb, rfl, rfl⟩

theorem retryOr_within {e : Error}
    {giveUp : State -> Turn (Budget.measure cfg) b result × State}
    (h : Within v n lost b s (giveUp s)) : Within v n lost b s (retryOr b e giveUp s) := by
  unfold retryOr
  split
  · next hretry =>
      exact Or.inr ⟨(sleep_spends v cfg _ s).mono (Nat.zero_le _) (Nat.le_refl _) (Nat.le_refl _),
        rfl, rfl, hretry.right⟩
  · exact h

theorem within_classify (giveUp : ReadStatus -> result)
    (hlost : forall status, lost (giveUp status) -> status = .sessionLost) :
    Within v 0 lost b s ((.leave (giveUp (classifyEndpoint v s).1), (classifyEndpoint v s).2) :
      Turn (Budget.measure cfg) b result × State) := by
  rcases hclassify : classifyEndpoint v s with ⟨status, s1⟩
  rcases classifyEndpoint_spends hclassify with ⟨hspends, hlacks⟩
  exact ⟨hspends.mono (Nat.le_refl _) (Nat.zero_le _) (Nat.le_refl _),
    fun hs h => hlacks hs (hlost status h)⟩

variable (v cfg) in
theorem readAttempt_within (path : String) (b : Budget) (s : State) :
    Within v 1 (fun value => value.2 = .sessionLost) b s (readAttempt v cfg path b s) := by
  have hrequest := request_spends v .get path s
  unfold readAttempt
  rcases hreq : request v .get path s with ⟨r, s1⟩
  rw [hreq] at hrequest
  cases r with
  | ok payload =>
      rcases hdecode : decodeContentsPayload v payload path s1 with ⟨value, s2⟩
      rcases decodeContentsPayload_spends hdecode with ⟨hdecoded, hnever⟩
      simp only [hdecode]
      exact within_leave (hrequest.trans hdecoded) hnever
  | error e =>
      refine Within.after hrequest (n := 0) ?_
      simp only
      split
      · next hrefresh =>
          split
          · exact within_leave (Spends.refl v s1) fun h => by cases h
          · rcases htoken : refreshToken v cfg e.statusCode s1 with ⟨status, s2⟩
            rcases refreshToken_spends htoken with ⟨hspends, hlacks⟩
            have hproblem : forall text, Spends v 0 1 0 s1 (s2.problem text) :=
              fun text => hspends.trans (problem_spends v s2 text)
            cases status with
            | ok =>
                refine within_again ?_ hrefresh.right
                split
                · have hstamp : Spends v 0 0 0 s2 { s2 with last404RefreshAt := some s2.clock } :=
                    Spends.of_same rfl rfl rfl rfl
                  exact hspends.trans hstamp
                · exact hspends
            | sessionLost =>
                exact within_refreshed (hproblem _) hrefresh.right fun _ => hlacks rfl
            | notFound => exact within_refreshed (hproblem _) hrefresh.right fun h => by cases h
            | degraded => exact within_refreshed (hproblem _) hrefresh.right fun h => by cases h
      · refine retryOr_within ?_
        split
        · exact within_leave (Spends.refl v s1) fun h => by cases h
        · exact Within.after (problem_spends v s1 _) (within_classify (Json.null, ·) fun _ h => h)

variable (v cfg) in
theorem writeAttempt_within (path payload : String) (b : Budget) (s : State) :
    Within v (chunkCount payload.utf8ByteSize + 1) (fun status => status = .sessionLost) b s
      (writeAttempt v cfg path payload b s) := by
  have hupload := contentsUpload_spends v path (chunkCount payload.utf8ByteSize) s
  unfold writeAttempt
  rcases hsend : contentsUpload v path (chunkCount payload.utf8ByteSize) s with ⟨r, s1⟩
  rw [hsend] at hupload
  refine Within.after hupload ?_
  cases r with
  | ok =>
      exact within_leave ((Spends.refl v s1).mono (by omega) (Nat.le_refl _) (Nat.le_refl _))
        fun h => by cases h
  | error e =>
      have hgiveUp : forall s2, Within v 0 (fun status => status = .sessionLost) b s2
          (if e.statusCode = some 404 ∧ b.refreshAttempted = true then (.leave .notFound, s2)
            else (.leave (classifyEndpoint v s2).1, (classifyEndpoint v s2).2) :
            Turn (Budget.measure cfg) b ReadStatus × State) := by
        intro s2
        split
        · exact within_leave (Spends.refl v s2) fun h => by cases h
        · exact within_classify id fun _ h => h
      simp only
      split
      · next hrefresh =>
          rcases htoken : refreshToken v cfg e.statusCode (stampBefore e true s1) with ⟨status, s2⟩
          rcases refreshToken_spends htoken with ⟨hspends, hlacks⟩
          have hboth : Spends v 1 1 0 s1 s2 := by
            have h := (stampBefore_spends v e true s1).trans hspends
            exact h.mono (by omega) (by omega) (Nat.le_refl _)
          cases status with
          | ok => exact within_again hboth hrefresh.right
          | sessionLost => exact within_refreshed hboth hrefresh.right fun _ => hlacks rfl
          | notFound => exact within_refreshed hboth hrefresh.right fun h => by cases h
          | degraded => exact within_refreshed hboth hrefresh.right fun h => by cases h
      · split
        · have hconfirm := confirmText_spends v path payload s1
          rcases hconfirmed : confirmText v path payload s1 with ⟨confirmed, s2⟩
          rw [hconfirmed] at hconfirm
          rcases confirmed with _ | _ | _
          · exact within_leave hconfirm fun h => by cases h
          · exact (Within.after hconfirm (retryOr_within (hgiveUp s2))).mono (by omega)
          · exact within_leave hconfirm fun h => by cases h
        · exact (retryOr_within (hgiveUp s1)).mono (by omega)

/-- What an `upload` or `makedirs` raises for a lost session. -/
def RaisesLost (outcome : Except TransportError Unit) : Prop :=
  exists e, outcome = .error e ∧ e.status = .sessionLost

theorem raisesLost_iff {e : TransportError} :
    RaisesLost (.error e) <-> e.status = .sessionLost := by
  constructor
  · rintro ⟨e', heq, h⟩
    cases heq
    exact h
  · exact fun h => ⟨e, rfl, h⟩

theorem sendAttempt_within {stamps : Bool} {send : State -> Except Error Unit × State}
    {confirm : State -> Option Bool × State} {what : String}
    (hsend : forall s, Spends v n 0 0 s (send s).2)
    (hconfirm : forall s, Spends v 1 0 0 s (confirm s).2) (b : Budget) (s : State) :
    Within v (n + 1) RaisesLost b s (sendAttempt v cfg stamps send confirm what b s) := by
  have hsent := hsend s
  unfold sendAttempt
  rcases hs : send s with ⟨r, s1⟩
  rw [hs] at hsent
  refine Within.after hsent ?_
  cases r with
  | ok =>
      refine within_leave ((Spends.refl v s1).mono (by omega) (Nat.le_refl _) (Nat.le_refl _)) ?_
      rintro ⟨_, h, _⟩
      cases h
  | error e =>
      have hgiveUp : forall s2, Within v 0 RaisesLost b s2
          ((.leave (.error ⟨(classifyEndpoint v s2).1, failed what e b.transientRetries ""⟩),
            (classifyEndpoint v s2).2) : Turn (Budget.measure cfg) b (Except TransportError Unit) ×
              State) := fun s2 =>
        within_classify (fun status => Except.error (TransportError.mk status
          (failed what e b.transientRetries ""))) fun _ => raisesLost_iff.mp
      simp only
      split
      · next hrefresh =>
          rcases htoken : refreshToken v cfg e.statusCode (stampBefore e stamps s1) with ⟨status, s2⟩
          rcases refreshToken_spends htoken with ⟨hspends, hlacks⟩
          have hboth : Spends v 1 1 0 s1 s2 := by
            have h := (stampBefore_spends v e stamps s1).trans hspends
            exact h.mono (by omega) (by omega) (Nat.le_refl _)
          cases status with
          | ok => exact within_again hboth hrefresh.right
          | sessionLost => exact within_refreshed hboth hrefresh.right fun _ => hlacks rfl
          | notFound =>
              exact within_refreshed hboth hrefresh.right fun h => by cases raisesLost_iff.mp h
          | degraded =>
              exact within_refreshed hboth hrefresh.right fun h => by cases raisesLost_iff.mp h
      · split
        · have hasked := hconfirm s1
          rcases hconfirmed : confirm s1 with ⟨confirmed, s2⟩
          rw [hconfirmed] at hasked
          rcases confirmed with _ | _ | _
          · exact within_leave hasked fun h => by cases raisesLost_iff.mp h
          · exact (Within.after hasked (retryOr_within (hgiveUp s2))).mono (by omega)
          · refine within_leave hasked ?_
            rintro ⟨_, h, _⟩
            cases h
        · exact (retryOr_within (hgiveUp s1)).mono (by omega)

variable (v cfg) in
theorem deleteAttempt_within (path : String) (b : Budget) (s : State) :
    Within v 1 (fun status => status = some .sessionLost) b s
      (deleteAttempt v cfg path b s) := by
  have hrequest := request_spends v .delete path s
  unfold deleteAttempt
  rcases hreq : request v .delete path s with ⟨r, s1⟩
  rw [hreq] at hrequest
  refine Within.after hrequest (n := 0) ?_
  cases r with
  | ok payload => exact within_leave (Spends.refl v s1) fun h => by cases h
  | error e =>
      simp only
      split
      · exact within_leave (Spends.refl v s1) fun h => by cases h
      · split
        · next hrefresh =>
            rcases htoken : refreshToken v cfg e.statusCode s1 with ⟨status, s2⟩
            rcases refreshToken_spends htoken with ⟨hspends, hlacks⟩
            cases status with
            | ok => exact within_again hspends hrefresh.right
            | sessionLost => exact within_refreshed hspends hrefresh.right fun _ => hlacks rfl
            | notFound => exact within_refreshed hspends hrefresh.right fun h => by cases h
            | degraded => exact within_refreshed hspends hrefresh.right fun h => by cases h
        · exact retryOr_within (within_classify some fun _ => Option.some.inj)

variable (v cfg) in
theorem confirmAttempt_within (path : String) (b : Budget) (s : State) :
    Within v 1 (fun status => status = .sessionLost) b s (confirmAttempt v cfg path b s) := by
  have hrequest := request_spends v .get path s
  unfold confirmAttempt
  rcases hreq : request v .get path s with ⟨r, s1⟩
  rw [hreq] at hrequest
  refine Within.after hrequest (n := 0) ?_
  cases r with
  | ok payload => exact within_leave (Spends.refl v s1) fun h => by cases h
  | error e =>
      simp only
      split
      · exact within_leave (Spends.refl v s1) fun h => by cases h
      · split
        · next hrefresh =>
            rcases htoken : refreshToken v cfg e.statusCode s1 with ⟨status, s2⟩
            rcases refreshToken_spends htoken with ⟨hspends, _⟩
            cases status with
            | ok => exact within_again hspends hrefresh.right
            | sessionLost => exact within_refreshed hspends hrefresh.right fun h => by cases h
            | notFound => exact within_refreshed hspends hrefresh.right fun h => by cases h
            | degraded => exact within_refreshed hspends hrefresh.right fun h => by cases h
        · exact retryOr_within (within_leave (Spends.refl v s1) (fun h => by cases h))

/-!
## Loops
-/

def Budget.refreshed (b : Budget) : Nat := if b.refreshAttempted then 1 else 0

theorem Budget.refreshed_le (b : Budget) : b.refreshed ≤ 1 := by
  unfold Budget.refreshed
  split <;> omega

theorem loop_spends {body : Attempts cfg result}
    (hbody : forall b s, Within v n lost b s (body b s)) (s : State) :
    Spends v (n * (cfg.maxRetries + 2)) 1 cfg.maxRetries s (body.run s).2 ∧
      (Informed v s -> lost (body.run s).1 -> LastListingLacks v (body.run s).2) := by
  refine Loop.run_rule body.loop
    (fun b s' => b.transientRetries ≤ cfg.maxRetries ∧
      Spends v (n * (b.refreshed + b.transientRetries)) b.refreshed b.transientRetries s s')
    (fun value s' => Spends v (n * (cfg.maxRetries + 2)) 1 cfg.maxRetries s s' ∧
      (Informed v s -> lost value -> LastListingLacks v s')) ?_ ?_ Budget.start s ?_
  · intro b s1 next s2 hinv hturn
    rcases hinv with ⟨hle, hspends⟩
    have hpass := hbody b s1
    rw [show body b s1 = (.again next, s2) from hturn] at hpass
    rcases hpass with ⟨hmore, hb, hnext, hretries⟩ | ⟨hmore, hrefreshed, hretries, hleft⟩
    · have hbefore : b.refreshed = 0 := by rw [Budget.refreshed, hb]; rfl
      have hafter : next.val.refreshed = 1 := by rw [Budget.refreshed, hnext]; rfl
      rw [hretries, hafter]
      rw [hbefore] at hspends
      refine ⟨hle, (hspends.trans hmore).mono ?_ (Nat.le_refl _) (Nat.le_refl _)⟩
      rw [Nat.zero_add, Nat.add_comm 1, Nat.mul_succ]
    · have hsame : next.val.refreshed = b.refreshed := by
        rw [Budget.refreshed, hrefreshed]
        rfl
      rw [hretries, hsame]
      refine ⟨hleft, (hspends.trans hmore).mono ?_ (Nat.le_refl _) (Nat.le_refl _)⟩
      rw [← Nat.add_assoc, Nat.mul_succ]
  · intro b s1 value s2 hinv hturn
    rcases hinv with ⟨hle, hspends⟩
    have hpass := hbody b s1
    rw [show body b s1 = (.leave value, s2) from hturn] at hpass
    rcases hpass with ⟨hlast, hlost⟩
    refine ⟨(hspends.trans hlast).mono ?_ ?_ hle, fun hs => hlost (hspends.informed hs)⟩
    · rw [← Nat.mul_succ]
      have := b.refreshed_le
      exact Nat.mul_le_mul_left n (by omega)
    · unfold Budget.refreshed
      split <;> omega
  · exact ⟨Nat.zero_le _, Spends.refl v s⟩

/-!
## Calls
-/

def Op.passRequests : Op -> Nat
  | .wait _ => 0
  | .readJson _ | .readText _ | .remove _ => 1
  | .write _ payload => chunkCount payload.utf8ByteSize + 1
  | .upload size _ => chunkCount size + 1
  | .makedirs dir => 2 * (ancestors dir).length + 1

def Op.loops : Op -> Nat
  | .wait _ => 0
  | .remove _ => 2
  | _ => 1

def requestLoops (v : Server) (cfg : Config) (s : State) : Op -> List (State × State)
  | .wait _ => []
  | .readJson path | .readText path => [(s, (read v cfg path s).2)]
  | .write path payload => [(s, (write v cfg path payload s).2)]
  | .upload size path => [(s, (upload v cfg size path s).2)]
  | .makedirs dir => [(s, (makedirs v cfg dir s).2)]
  | .remove path =>
      let deleted := (deleteAttempt v cfg path).run s
      match deleted.1 with
      | some _ => [(s, deleted.2)]
      | none =>
          [(s, deleted.2), (deleted.2, ((confirmAttempt v cfg path).run deleted.2).2)]

def raised : Except TransportError Unit -> Option ReadStatus
  | .ok () => none
  | .error e => some e.status

def report (v : Server) (cfg : Config) (s : State) : Op -> Option ReadStatus
  | .wait _ => none
  | .readJson path => some (readJson v cfg path s.begin_).1.2
  | .readText path => some (readText v cfg path s.begin_).1.2
  | .write path payload => some (write v cfg path payload s.begin_).1
  | .upload size path => raised (upload v cfg size path s.begin_).1
  | .makedirs dir => raised (makedirs v cfg dir s.begin_).1
  | .remove path => some (remove v cfg path s.begin_).1

theorem raised_lost {outcome : Except TransportError Unit}
    (h : raised outcome = some .sessionLost) : RaisesLost outcome := by
  cases outcome with
  | ok => cases h
  | error e => exact ⟨e, rfl, Option.some.inj h⟩

variable (v cfg) in
theorem readJson_spends (path : String) (s : State) :
    Spends v 0 0 0 (read v cfg path s).2 (readJson v cfg path s).2 ∧
      ((readJson v cfg path s).1.2 = .sessionLost ->
        (read v cfg path s).1.2 = .sessionLost ∧
          (readJson v cfg path s).2 = (read v cfg path s).2) := by
  unfold readJson
  rcases read v cfg path s with ⟨⟨value, status⟩, s1⟩
  have hsame := Spends.refl v s1
  have hproblem := problem_spends v s1
  cases status <;> grind

variable (v cfg) in
theorem readText_eq (path : String) (s : State) :
    (readText v cfg path s).2 = (read v cfg path s).2 ∧
      (readText v cfg path s).1.2 = (read v cfg path s).1.2 := by
  unfold readText
  rcases read v cfg path s with ⟨⟨value, status⟩, s1⟩
  cases status <;> exact ⟨rfl, rfl⟩

/-- What a call spends in each of its loops and altogether, and what its report rests on. -/
structure Ends (v : Server) (cfg : Config) (s : State) (op : Op) : Prop where
  loops : forall loop, loop ∈ requestLoops v cfg s.begin_ op ->
    Spends v (op.passRequests * (cfg.maxRetries + 2)) 1 cfg.maxRetries loop.1 loop.2
  requests : (perform v cfg s op).2.requests ≤
    s.requests + op.loops * (op.passRequests * (cfg.maxRetries + 2))
  informed : Informed v s -> Informed v (perform v cfg s op).2
  honest : Informed v s -> report v cfg s op = some .sessionLost ->
    LastListingLacks v (perform v cfg s op).2

theorem Ends.of_loop {op : Op} (hloops : requestLoops v cfg s.begin_ op = [(s.begin_, s')])
    (hstate : (perform v cfg s op).2 = s') (hone : op.loops = 1)
    (hspends : Spends v (op.passRequests * (cfg.maxRetries + 2)) 1 cfg.maxRetries s.begin_ s')
    (hhonest : Informed v s.begin_ -> report v cfg s op = some .sessionLost ->
      LastListingLacks v s') : Ends v cfg s op := by
  constructor
  · rw [hloops]
    exact List.forall_mem_cons.mpr ⟨hspends, List.forall_mem_nil _⟩
  · rw [hstate, hone, Nat.one_mul]
    exact hspends.requests
  · rw [hstate]
    exact hspends.informed
  · rw [hstate]
    exact hhonest

variable (v cfg) in
theorem perform_ends (s : State) (op : Op) : Ends v cfg s op := by
  cases op with
  | wait ticks =>
      exact ⟨List.forall_mem_nil _, Nat.le_add_right _ _, id, fun _ h => nomatch h⟩
  | readJson path =>
      rcases loop_spends (readAttempt_within v cfg path) s.begin_ with ⟨hloop, hlost⟩
      rcases readJson_spends v cfg path s.begin_ with ⟨hrest, hstatus⟩
      have hwhole : Spends v (1 * (cfg.maxRetries + 2)) 1 cfg.maxRetries s.begin_
          (readJson v cfg path s.begin_).2 := hloop.trans hrest
      have hperform : (perform v cfg s (.readJson path)).2 = (readJson v cfg path s.begin_).2 := rfl
      constructor
      · exact List.forall_mem_cons.mpr ⟨hloop, List.forall_mem_nil _⟩
      · rw [hperform, show Op.loops (.readJson path) = 1 from rfl, Nat.one_mul]
        exact hwhole.requests
      · rw [hperform]
        exact hwhole.informed
      · intro hs h
        rcases hstatus (Option.some.inj h) with ⟨hread, hstate⟩
        rw [hperform, hstate]
        exact hlost hs hread
  | readText path =>
      rcases loop_spends (readAttempt_within v cfg path) s.begin_ with ⟨hloop, hlost⟩
      rcases readText_eq v cfg path s.begin_ with ⟨hstate, hstatus⟩
      exact Ends.of_loop rfl hstate rfl hloop fun hs h =>
        hlost hs (hstatus.symm.trans (Option.some.inj h))
  | write path payload =>
      rcases loop_spends (writeAttempt_within v cfg path payload) s.begin_ with ⟨hloop, hlost⟩
      exact Ends.of_loop rfl rfl rfl hloop fun hs h => hlost hs (Option.some.inj h)
  | upload size path =>
      have hpass : forall b s, Within v (chunkCount size + 1) RaisesLost b s
          (sendAttempt v cfg true (contentsUpload v path (chunkCount size))
            (confirmSize v path size) s!"upload failed: {path}" b s) :=
        sendAttempt_within (contentsUpload_spends v path (chunkCount size))
          (confirmSize_spends v path size)
      rcases loop_spends hpass s.begin_ with ⟨hloop, hlost⟩
      exact Ends.of_loop rfl rfl rfl hloop fun hs h => hlost hs (raised_lost h)
  | makedirs dir =>
      have hpass : forall b s, Within v (2 * (ancestors dir).length + 1) RaisesLost b s
          (sendAttempt v cfg false (contentsMakedirs v dir (ancestors dir))
            (confirmDirectory v dir) s!"could not create {dir}" b s) :=
        sendAttempt_within (contentsMakedirs_spends v dir (ancestors dir))
          (confirmDirectory_spends v dir)
      rcases loop_spends hpass s.begin_ with ⟨hloop, hlost⟩
      exact Ends.of_loop rfl rfl rfl hloop fun hs h => hlost hs (raised_lost h)
  | remove path =>
      rcases loop_spends (deleteAttempt_within v cfg path) s.begin_ with ⟨hdelete, hlost⟩
      have hconfirm := fun s1 => loop_spends (confirmAttempt_within v cfg path) s1
      have hperform : (perform v cfg s (.remove path)).2 = (remove v cfg path s.begin_).2 := rfl
      have hreport : report v cfg s (.remove path) = some (remove v cfg path s.begin_).1 := rfl
      rcases hdeleted : (deleteAttempt v cfg path).run s.begin_ with ⟨_ | status, s1⟩
      · rw [hdeleted] at hdelete hlost
        rcases hconfirm s1 with ⟨hconfirmed, hlost'⟩
        have hremove : remove v cfg path s.begin_ = (confirmAttempt v cfg path).run s1 := by
          unfold remove
          rw [hdeleted]
        have hboth := hdelete.trans hconfirmed
        refine ⟨?_, ?_, fun hs => ?_, fun hs h => ?_⟩
        · simp only [requestLoops, hdeleted]
          exact List.forall_mem_cons.mpr ⟨hdelete,
            List.forall_mem_cons.mpr ⟨hconfirmed, List.forall_mem_nil _⟩⟩
        · rw [hperform, hremove, show Op.loops (.remove path) = 2 from rfl, Nat.two_mul]
          exact hboth.requests
        · rw [hperform, hremove]
          exact hboth.informed hs
        · rw [hreport, hremove] at h
          rw [hperform, hremove]
          exact hlost' (hdelete.informed hs) (Option.some.inj h)
      · rw [hdeleted] at hdelete hlost
        have hremove : remove v cfg path s.begin_ = (status, s1) := by
          unfold remove
          rw [hdeleted]
        refine ⟨?_, ?_, fun hs => ?_, fun hs h => ?_⟩
        · simp only [requestLoops, hdeleted]
          exact List.forall_mem_cons.mpr ⟨hdelete, List.forall_mem_nil _⟩
        · rw [hperform, hremove, show Op.loops (.remove path) = 2 from rfl, Nat.two_mul]
          exact Nat.le_trans hdelete.requests (Nat.add_le_add_left (Nat.le_add_right _ _) _)
        · rw [hperform, hremove]
          exact hdelete.informed hs
        · rw [hreport, hremove] at h
          rw [hperform, hremove]
          exact hlost hs h

def State.after (v : Server) (cfg : Config) (s : State) (calls : List Op) : State :=
  calls.foldl (fun s op => (perform v cfg s op).2) s

theorem after_informed (v : Server) (cfg : Config) (calls : List Op) (h : Informed v s) :
    Informed v (State.after v cfg s calls) := by
  induction calls generalizing s with
  | nil => exact h
  | cons op calls ih => exact ih ((perform_ends v cfg s op).informed h)

theorem fresh_informed (v : Server) (clock tokenExpiry : Nat) (session : Session) :
    Informed v (State.fresh clock tokenExpiry session) := by
  intro h
  cases h

/-- Whatever is answered and listed, and whatever calls came before: a call makes so many
requests, refreshes the token once in a loop and retries as often as allowed, and it reports a
lost session only if the last completed listing lacks the endpoint. -/
theorem transport_ends (v : Server) (cfg : Config) (clock tokenExpiry : Nat) (session : Session)
    (before : List Op) (op : Op) :
    let s := State.after v cfg (State.fresh clock tokenExpiry session) before
    (forall loop, loop ∈ requestLoops v cfg s.begin_ op ->
      loop.2.requests ≤ loop.1.requests + op.passRequests * (cfg.maxRetries + 2) ∧
      refreshes loop.2.log ≤ refreshes loop.1.log + 1 ∧
      retries loop.2.log ≤ retries loop.1.log + cfg.maxRetries) ∧
    (perform v cfg s op).2.requests ≤
      s.requests + op.loops * (op.passRequests * (cfg.maxRetries + 2)) ∧
    (report v cfg s op = some .sessionLost -> LastListingLacks v (perform v cfg s op).2) := by
  have hinformed := after_informed v cfg before (fresh_informed v clock tokenExpiry session)
  generalize State.after v cfg (State.fresh clock tokenExpiry session) before = s at hinformed ⊢
  have hends := perform_ends v cfg s op
  refine ⟨fun loop hloop => ?_, hends.requests, hends.honest hinformed⟩
  have hspends := hends.loops loop hloop
  exact ⟨hspends.requests, hspends.refreshes, hspends.retries⟩

/-- A lost session after one request and one listing. -/
example : report { oneFileVm "a" false with releasedAt := some 0 }.server defaults
    (State.fresh 0 0 ⟨"token", "url"⟩) (.readText "a") = some .sessionLost := by
  decide

end Transport
end Job
end MightyColab
