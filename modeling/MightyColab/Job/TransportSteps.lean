import MightyColab.Job.Transport

/-!
# What the transport's steps keep

One specification for each step an operation is made of: requests, listings, token
refreshes, back-offs, and the requests of one upload or one `makedirs`. The
operations' own results follow from these and from the loop rule, without looking
into a step again.
-/

namespace MightyColab
namespace Job

open Lib

namespace Transport

/-!
## Time and the endpoint

Time goes forward, and a listing that missed the endpoint was right.
-/

def Honest (w : World) (s : State) : Prop :=
  s.lastEndpointPresent = some false -> w.Gone s.clock

structure Advances (w : World) (s s' : State) : Prop where
  clock : s.clock ≤ s'.clock
  honest : Honest w s -> Honest w s'

/-- Moreover the token and the time of the last refresh are as they were. -/
structure Passes (w : World) (s s' : State) : Prop extends Advances w s s' where
  token : s'.tokenExpiry = s.tokenExpiry
  stamp : s'.last404RefreshAt = s.last404RefreshAt

variable {w : World} {cfg : Config} {s s' s'' : State}

theorem Advances.refl (w : World) (s : State) : Advances w s s :=
  ⟨Nat.le_refl _, id⟩

theorem Advances.trans (h : Advances w s s') (h' : Advances w s' s'') :
    Advances w s s'' :=
  ⟨Nat.le_trans h.clock h'.clock, fun hs => h'.honest (h.honest hs)⟩

theorem Passes.refl (w : World) (s : State) : Passes w s s :=
  ⟨Advances.refl w s, rfl, rfl⟩

theorem Passes.trans (h : Passes w s s') (h' : Passes w s' s'') : Passes w s s'' :=
  ⟨h.toAdvances.trans h'.toAdvances, h'.token.trans h.token, h'.stamp.trans h.stamp⟩

theorem problem_passes (w : World) (s : State) (text : String) :
    Passes w s (s.problem text) :=
  ⟨⟨Nat.le_refl _, id⟩, rfl, rfl⟩

theorem sleep_passes (w : World) (cfg : Config) (n : Nat) (s : State) :
    Passes w s (s.sleep cfg n) :=
  ⟨⟨Nat.le_add_right _ _, fun h hp => (h hp).mono (Nat.le_add_right _ _)⟩, rfl, rfl⟩

/-!
## Requests and listings
-/

theorem statusCode_of_notFound {e : Error} (h : e.cause = .notFound) :
    e.statusCode = some 404 := by
  simp [Error.statusCode, h]

/-- A request either leaves no trace, or its answer at the head of the log: what
the VM serves then, refused, or a 404 that the expired token alone explains. -/
theorem request_cases {method : Method} {path : String} {r : Except Error Json}
    (h : request w method path s = (r, s')) :
    Passes w s s' ∧
      ((s'.log = s.log ∧ exists e, r = .error e ∧ e.statusCode ≠ some 404) ∨
        exists time expired, s'.log = .answer method path time expired :: s.log ∧
          s.clock ≤ time ∧ time ≤ s'.clock ∧
          (expired = true <-> s.tokenExpiry ≤ time) ∧
          ((expired = true ∧ exists e, r = .error e ∧ e.cause = .notFound) ∨
            (expired = false ∧ w.serve method path time = none ∧
              exists e, r = .error e ∧ e.cause = .notFound) ∨
            (expired = false ∧ exists e, r = .error e ∧ e.statusCode ≠ some 404) ∨
            (expired = false ∧ exists v, r = .ok v))) := by
  have hmono : forall t, s.clock ≤ t -> w.Gone s.clock -> w.Gone t :=
    fun t hle hg => hg.mono hle
  constructor
  · simp only [request, World.server] at h
    refine ⟨⟨?_, fun hs hp => hmono _ ?_ (hs ?_)⟩, ?_, ?_⟩ <;> grind
  · simp only [request, World.server] at h
    cases hlost : (w.hop s.requests).lost with
    | some loss =>
        left
        simp only [hlost, Prod.mk.injEq] at h
        rcases h with ⟨rfl, rfl⟩
        exact ⟨rfl, _, rfl, by cases loss <;> simp [Loss.cause, Error.statusCode]⟩
    | none =>
        right
        simp only [hlost] at h
        refine ⟨s.clock + (w.hop s.requests).there,
          decide (s.tokenExpiry ≤ s.clock + (w.hop s.requests).there), ?_⟩
        cases hrefused : (w.hop s.requests).refused <;>
          cases hserve : w.serve method path (s.clock + (w.hop s.requests).there) <;>
          grind [Error.statusCode]

theorem request_log {method : Method} {path : String} {r : Except Error Json}
    (h : request w method path s = (r, s')) : exists more, s'.log = more ++ s.log := by
  rcases (request_cases h).right with ⟨hlog, _⟩ | ⟨time, expired, hlog, _⟩
  · exact ⟨[], hlog⟩
  · exact ⟨[_], hlog⟩

theorem findAssignment_spec {proxy : Option Proxy} {present : Option Bool}
    (h : findAssignment w s = (proxy, present, s')) :
    Passes w s s' ∧ s'.log = s.log ∧ s'.lastEndpointPresent = s.lastEndpointPresent ∧
      (present = some false -> w.Gone s'.clock) := by
  have hmono : forall t, s.clock ≤ t -> w.Gone s.clock -> w.Gone t :=
    fun t hle hg => hg.mono hle
  have hback : w.Gone (s.clock + (w.listing s.listings).there) ->
      w.Gone (s.clock + (w.listing s.listings).there + (w.listing s.listings).back) :=
    fun hg => hg.mono (Nat.le_add_right _ _)
  simp only [findAssignment, World.server] at h
  refine ⟨⟨⟨?_, fun hs hp => hmono _ ?_ (hs ?_)⟩, ?_, ?_⟩, ?_, ?_, ?_⟩ <;> grind

theorem classifyEndpoint_spec {status : ReadStatus}
    (h : classifyEndpoint w s = (status, s')) :
    Passes w s s' ∧ s'.log = s.log ∧ (status = .degraded ∨ status = .sessionLost) ∧
      (Honest w s -> status = .sessionLost -> w.Gone s'.clock) := by
  unfold classifyEndpoint at h
  cases hp : s.lastEndpointPresent with
  | some present =>
      have hs := Passes.refl w s
      have hhonest : Honest w s -> present = false -> w.Gone s.clock :=
        fun hs hpresent => hs (by rw [hp, hpresent])
      cases present <;> grind
  | none =>
      rcases hfind : findAssignment w s with ⟨proxy, present, s1⟩
      have hspec := findAssignment_spec hfind
      rw [hp, hfind] at h
      cases h
      refine ⟨⟨⟨hspec.left.clock, fun _ => hspec.right.right.right⟩,
        hspec.left.token, hspec.left.stamp⟩, hspec.right.left, ?_, ?_⟩
      · split <;> simp
      · intro _ hstatus
        refine hspec.right.right.right ?_
        by_contra hne
        simp [hne] at hstatus

/-- A refresh: `ok` gives a token with a full interval ahead of it, anything else
leaves the token, and `sessionLost` means that the assignment is gone. -/
theorem refreshToken_spec {code : Option Nat} {status : ReadStatus}
    (h : refreshToken w cfg code s = (status, s')) :
    Advances w s s' ∧ s'.log = .refresh code status :: s.log ∧
      s'.last404RefreshAt = s.last404RefreshAt ∧ status ≠ .notFound ∧
      (status = .ok -> s'.clock + cfg.notFoundRefreshInterval ≤ s'.tokenExpiry) ∧
      (status ≠ .ok -> s'.tokenExpiry = s.tokenExpiry) ∧
      (status = .sessionLost -> w.Gone s'.clock) := by
  rcases hfind : findAssignment w s with ⟨proxy, present, s1⟩
  have hspec := findAssignment_spec hfind
  have hclock := hspec.left.clock
  simp only [refreshToken, hfind] at h
  rcases present with _ | _ | _
  · simp only [Prod.mk.injEq] at h
    rcases h with ⟨rfl, rfl⟩
    refine ⟨⟨hclock, fun _ hp => by cases hp⟩, ?_, hspec.left.stamp, by simp, by simp,
      fun _ => hspec.left.token, by simp⟩
    simp [State.problem, hspec.right.left]
  · simp only [Prod.mk.injEq] at h
    rcases h with ⟨rfl, rfl⟩
    exact ⟨⟨hclock, fun _ _ => hspec.right.right.right rfl⟩, by simp [hspec.right.left],
      hspec.left.stamp, by simp, by simp, fun _ => hspec.left.token,
      fun _ => hspec.right.right.right rfl⟩
  · have hlog := hspec.right.left
    have hstamp := hspec.left.stamp
    have htoken := hspec.left.token
    cases proxy with
    | none =>
        simp only [Prod.mk.injEq] at h
        rcases h with ⟨rfl, rfl⟩
        exact ⟨⟨hclock, fun _ hp => by cases hp⟩, by simp [State.problem, hlog], hstamp,
          by simp, by simp, fun _ => htoken, by simp⟩
    | some proxy =>
        cases htok : proxy.token.filter (· ≠ "") with
        | none =>
            simp only [htok, Prod.mk.injEq] at h
            rcases h with ⟨rfl, rfl⟩
            exact ⟨⟨hclock, fun _ hp => by cases hp⟩, by simp [State.problem, hlog],
              hstamp, by simp, by simp, fun _ => htoken, by simp⟩
        | some token =>
            simp only [htok, Prod.mk.injEq] at h
            rcases h with ⟨rfl, rfl⟩
            exact ⟨⟨hclock, fun _ hp => by cases hp⟩, by simp [hlog], hstamp, by simp,
              fun _ => Nat.le_add_right _ _, by simp, by simp⟩

theorem refreshToken_passes {code : Option Nat} {status : ReadStatus}
    (h : refreshToken w cfg code s = (status, s')) (hne : status ≠ .ok) :
    Passes w s s' := by
  rcases refreshToken_spec h with ⟨hadvances, _, hstamp, _, _, htoken, _⟩
  exact ⟨hadvances, htoken hne, hstamp⟩

/-!
## Compound steps
-/

theorem decodeContentsPayload_spec {payload : Json} {path : String}
    {r : Json × ReadStatus} (h : decodeContentsPayload w payload path s = (r, s')) :
    Passes w s s' ∧ s'.log = s.log ∧ r.2 ≠ .notFound := by
  have hrefl := Passes.refl w s
  have hproblem : forall text, Passes w s (s.problem text) := problem_passes w s
  have hlog : forall text, (s.problem text).log = s.log := fun _ => rfl
  unfold decodeContentsPayload at h
  grind

theorem confirmText_passes (w : World) (path payload : String) (s : State) :
    Passes w s (confirmText w path payload s).2 := by
  unfold confirmText
  rcases hreq : request w .get path s with ⟨r, s1⟩
  have hpasses := (request_cases hreq).left
  cases r with
  | error e => exact hpasses
  | ok raw =>
      rcases hdec : decodeContentsPayload w raw "" s1 with ⟨⟨value, status⟩, s2⟩
      have hboth := hpasses.trans (decodeContentsPayload_spec hdec).left
      simp only [hdec]
      split <;> grind

theorem confirmSize_passes (w : World) (path : String) (size : Nat) (s : State) :
    Passes w s (confirmSize w path size s).2 := by
  unfold confirmSize
  rcases hreq : request w .get path s with ⟨r, s1⟩
  have hpasses := (request_cases hreq).left
  grind

theorem confirmDirectory_passes (w : World) (dir : String) (s : State) :
    Passes w s (confirmDirectory w dir s).2 := by
  unfold confirmDirectory
  rcases hreq : request w .get dir s with ⟨r, s1⟩
  have hpasses := (request_cases hreq).left
  grind

theorem contentsUpload_passes (w : World) (path : String) :
    forall (chunks : Nat) (s : State),
      Passes w s (contentsUpload w path chunks s).2 := by
  intro chunks
  induction chunks with
  | zero =>
      intro s
      exact Passes.refl w s
  | succ chunks ih =>
      intro s
      unfold contentsUpload
      rcases hreq : request w .put path s with ⟨r, s1⟩
      have hpasses := (request_cases hreq).left
      cases r with
      | error e => exact hpasses
      | ok reply => exact hpasses.trans (ih s1)

theorem contentsMakedirs_passes (w : World) (dir : String) :
    forall (paths : List String) (s : State),
      Passes w s (contentsMakedirs w dir paths s).2 := by
  intro paths
  induction paths with
  | nil =>
      intro s
      exact Passes.refl w s
  | cons path rest ih =>
      intro s
      rcases hget : request w .get path s with ⟨r, s1⟩
      rcases hput : request w .put path s1 with ⟨q, s2⟩
      have hfirst := (request_cases hget).left
      have hsecond := hfirst.trans (request_cases hput).left
      have hrest : Passes w s (contentsMakedirs w dir rest s1).2 := hfirst.trans (ih s1)
      have hcreated : Passes w s (contentsMakedirs w dir rest s2).2 := hsecond.trans (ih s2)
      simp only [contentsMakedirs, hget]
      grind

theorem retryOr_cases {result : Type} {b : Budget} {e : Error}
    {giveUp : State -> Turn (Budget.measure cfg) b result × State}
    {turn : Turn (Budget.measure cfg) b result}
    (h : retryOr b e giveUp s = (turn, s')) :
    (exists next, turn = .again next ∧
      next.val.refreshAttempted = b.refreshAttempted ∧
      s' = s.sleep cfg b.transientRetries) ∨ giveUp s = (turn, s') := by
  unfold retryOr at h
  split at h
  · cases h
    exact Or.inl ⟨_, rfl, rfl, rfl⟩
  · exact Or.inr h

end Transport
end Job
end MightyColab
