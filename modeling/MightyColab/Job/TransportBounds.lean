import MightyColab.Job.NotFound

/-!
# What a transport operation spends

Requests, refreshes and retries of every operation, whatever is answered, and what a
transport knows when it reports a lost session. Every operation is made of steps that
spend a known amount; a pass of its loop spends a sum of these, and the loop as many
passes as its budget has.
-/

namespace MightyColab
namespace Job

open Lib

namespace Transport

variable {v : Server} {cfg : Config} {s s' s'' : State}

/-!
## Steps
-/

def Event.isRefresh : Event -> Bool
  | .refresh _ _ => true
  | _ => false

def Event.isSleep : Event -> Bool
  | .slept _ => true
  | _ => false

def refreshes (log : List Event) : Nat := log.countP Event.isRefresh

def retries (log : List Event) : Nat := log.countP Event.isSleep

def LastListingLacks (v : Server) (s : State) : Prop :=
  exists endpoints older, s.listed = endpoints :: older ∧ v.endpoint ∉ endpoints

def Informed (v : Server) (s : State) : Prop :=
  s.lastEndpointPresent = some false -> LastListingLacks v s

structure Spends (v : Server) (requested refreshed retried : Nat) (s s' : State) : Prop where
  requests : s'.requests ≤ s.requests + requested
  refreshes : refreshes s'.log ≤ refreshes s.log + refreshed
  retries : retries s'.log ≤ retries s.log + retried
  informed : Informed v s -> Informed v s'

theorem Spends.refl (v : Server) (s : State) : Spends v 0 0 0 s s :=
  ⟨Nat.le_refl _, Nat.le_refl _, Nat.le_refl _, id⟩

theorem Spends.trans {a b c a' b' c' : Nat} (h : Spends v a b c s s')
    (h' : Spends v a' b' c' s' s'') : Spends v (a + a') (b + b') (c + c') s s'' := by
  have hrequests := h'.requests
  have hrefreshes := h'.refreshes
  have hretries := h'.retries
  have := h.requests
  have := h.refreshes
  have := h.retries
  exact ⟨by omega, by omega, by omega, fun hs => h'.informed (h.informed hs)⟩

theorem Spends.mono {a b c a' b' c' : Nat} (h : Spends v a b c s s') (ha : a ≤ a')
    (hb : b ≤ b') (hc : c ≤ c') : Spends v a' b' c' s s' :=
  ⟨Nat.le_trans h.requests (Nat.add_le_add_left ha _),
    Nat.le_trans h.refreshes (Nat.add_le_add_left hb _),
    Nat.le_trans h.retries (Nat.add_le_add_left hc _), h.informed⟩

theorem refreshes_cons (e : Event) (log : List Event) :
    refreshes (e :: log) = refreshes log + if e.isRefresh then 1 else 0 := List.countP_cons

theorem retries_cons (e : Event) (log : List Event) :
    retries (e :: log) = retries log + if e.isSleep then 1 else 0 := List.countP_cons

theorem Spends.of_same (hrequests : s'.requests = s.requests) (hlog : s'.log = s.log)
    (hpresent : s'.lastEndpointPresent = s.lastEndpointPresent) (hlisted : s'.listed = s.listed) :
    Spends v 0 0 0 s s' := by
  refine ⟨Nat.le_of_eq hrequests, Nat.le_of_eq (congrArg _ hlog),
    Nat.le_of_eq (congrArg _ hlog), fun hs => ?_⟩
  unfold Informed LastListingLacks at hs ⊢
  rw [hpresent, hlisted]
  exact hs

theorem problem_spends (v : Server) (s : State) (text : String) :
    Spends v 0 0 0 s (s.problem text) :=
  Spends.of_same rfl rfl rfl rfl

theorem stampBefore_spends (v : Server) (e : Error) (stamps : Bool) (s : State) :
    Spends v 0 0 0 s (stampBefore e stamps s) := by
  unfold stampBefore
  split
  · exact Spends.of_same rfl rfl rfl rfl
  · exact Spends.refl v s

theorem sleep_spends (v : Server) (cfg : Config) (n : Nat) (s : State) :
    Spends v 0 0 1 s (s.sleep cfg n) := by
  constructor
  · exact Nat.le_refl _
  · exact Nat.le_of_eq (refreshes_cons (.slept n) s.log)
  · exact Nat.le_of_eq (retries_cons (.slept n) s.log)
  · exact id

theorem request_spends (v : Server) (method : Method) (path : String) (s : State) :
    Spends v 1 0 0 s (request v method path s).2 := by
  unfold request
  simp only
  cases (v.request method path s.clock s.tokenExpiry s.requests).answered with
  | none => exact ⟨Nat.le_refl _, Nat.le_refl _, Nat.le_refl _, id⟩
  | some answered =>
      constructor
      · exact Nat.le_refl _
      · exact Nat.le_of_eq (refreshes_cons (.answer method path answered.1 answered.2) s.log)
      · exact Nat.le_of_eq (retries_cons (.answer method path answered.1 answered.2) s.log)
      · exact id

theorem findAssignment_lacks {proxy : Option Proxy}
    (h : findAssignment v s = (proxy, some false, s')) : LastListingLacks v s' := by
  unfold findAssignment at h
  simp only at h
  split at h
  · cases h
  · next assignments _ =>
      split at h
      · cases h
      · next hfind =>
          cases h
          refine ⟨_, _, rfl, ?_⟩
          intro hmem
          rcases List.mem_map.mp hmem with ⟨assignment, hassignment, hendpoint⟩
          have hnone := List.find?_eq_none.mp hfind assignment hassignment
          exact hnone (decide_eq_true hendpoint)

theorem findAssignment_keeps {proxy : Option Proxy} {present : Option Bool}
    (h : findAssignment v s = (proxy, present, s')) :
    s'.requests = s.requests ∧ s'.log = s.log := by
  unfold findAssignment at h
  simp only at h
  split at h
  · cases h
    exact ⟨rfl, rfl⟩
  · split at h
    · cases h
      exact ⟨rfl, rfl⟩
    · cases h
      exact ⟨rfl, rfl⟩

theorem refreshToken_spends {code : Option Nat} {status : ReadStatus}
    (h : refreshToken v cfg code s = (status, s')) :
    Spends v 0 1 0 s s' ∧ (status = .sessionLost -> LastListingLacks v s') := by
  rcases hfind : findAssignment v s with ⟨proxy, present, s1⟩
  rcases findAssignment_keeps hfind with ⟨hrequests, hlog⟩
  -- one event more, and the cache is the listing's own answer
  have hspends : forall t : State, t.requests = s1.requests ->
      t.log = .refresh code status :: s1.log ->
      (t.lastEndpointPresent = some false -> LastListingLacks v t) -> Spends v 0 1 0 s t := by
    intro t ht hlogs hinformed
    constructor
    · rw [ht, hrequests]
      exact Nat.le_refl _
    · rw [hlogs, hlog]
      exact Nat.le_of_eq (refreshes_cons _ _)
    · rw [hlogs, hlog]
      exact Nat.le_of_eq (retries_cons _ _)
    · exact fun _ => hinformed
  simp only [refreshToken, hfind] at h
  rcases present with _ | _ | _
  · simp only [Prod.mk.injEq] at h
    rcases h with ⟨rfl, rfl⟩
    exact ⟨hspends _ rfl rfl (fun h => by cases h), fun h => by cases h⟩
  · simp only [Prod.mk.injEq] at h
    rcases h with ⟨rfl, rfl⟩
    have hlacks : LastListingLacks v s1 := findAssignment_lacks hfind
    exact ⟨hspends _ rfl rfl fun _ => hlacks, fun _ => hlacks⟩
  · cases proxy with
    | none =>
        simp only [Prod.mk.injEq] at h
        rcases h with ⟨rfl, rfl⟩
        exact ⟨hspends _ rfl rfl (fun h => by cases h), fun h => by cases h⟩
    | some proxy =>
        cases htoken : proxy.token.filter (· ≠ "") with
        | none =>
            simp only [htoken, Prod.mk.injEq] at h
            rcases h with ⟨rfl, rfl⟩
            exact ⟨hspends _ rfl rfl (fun h => by cases h), fun h => by cases h⟩
        | some token =>
            simp only [htoken, Prod.mk.injEq] at h
            rcases h with ⟨rfl, rfl⟩
            exact ⟨hspends _ rfl rfl (fun h => by cases h), fun h => by cases h⟩

theorem classifyEndpoint_spends {status : ReadStatus}
    (h : classifyEndpoint v s = (status, s')) :
    Spends v 0 0 0 s s' ∧
      (Informed v s -> status = .sessionLost -> LastListingLacks v s') := by
  unfold classifyEndpoint at h
  split at h
  · cases h
    exact ⟨Spends.refl v s, nofun⟩
  · next hcached =>
      cases h
      exact ⟨Spends.refl v s, fun hs _ => hs hcached⟩
  · rcases hfind : findAssignment v s with ⟨proxy, present, s1⟩
    rcases findAssignment_keeps hfind with ⟨hrequests, hlog⟩
    rw [hfind] at h
    cases h
    have hlacks : present = some false -> LastListingLacks v s1 := by
      rintro rfl
      exact findAssignment_lacks hfind
    refine ⟨⟨?_, ?_, ?_, fun _ => hlacks⟩, fun _ hstatus => hlacks ?_⟩
    · exact Nat.le_of_eq hrequests
    · exact Nat.le_of_eq (congrArg refreshes hlog)
    · exact Nat.le_of_eq (congrArg retries hlog)
    · by_contra hne
      rw [if_neg hne] at hstatus
      cases hstatus

theorem decodeContentsPayload_spends {payload : Json} {path : String}
    {value : Json × ReadStatus} (h : decodeContentsPayload v payload path s = (value, s')) :
    Spends v 0 0 0 s s' ∧ value.2 ≠ .sessionLost := by
  have hsame := Spends.refl v s
  have hproblem := problem_spends v s
  unfold decodeContentsPayload at h
  grind

/-!
## Several requests
-/

theorem confirmText_spends (v : Server) (path payload : String) (s : State) :
    Spends v 1 0 0 s (confirmText v path payload s).2 := by
  have hrequest := request_spends v .get path s
  unfold confirmText
  split
  · next raw s1 hreq =>
      rw [hreq] at hrequest
      split
      all_goals
        next hdecode =>
          exact hrequest.trans (decodeContentsPayload_spends hdecode).left
  · next e s1 hreq =>
      rw [hreq] at hrequest
      exact hrequest

theorem confirmSize_spends (v : Server) (path : String) (size : Nat) (s : State) :
    Spends v 1 0 0 s (confirmSize v path size s).2 := by
  have hrequest := request_spends v .get path s
  unfold confirmSize
  split
  all_goals
    next hreq =>
      rw [hreq] at hrequest
      exact hrequest

theorem confirmDirectory_spends (v : Server) (dir : String) (s : State) :
    Spends v 1 0 0 s (confirmDirectory v dir s).2 := by
  have hrequest := request_spends v .get dir s
  unfold confirmDirectory
  split
  all_goals
    next hreq =>
      rw [hreq] at hrequest
      exact hrequest

theorem contentsUpload_spends (v : Server) (path : String) (chunks : Nat) (s : State) :
    Spends v chunks 0 0 s (contentsUpload v path chunks s).2 := by
  induction chunks generalizing s with
  | zero => exact Spends.refl v s
  | succ chunks ih =>
      have hrequest := request_spends v .put path s
      unfold contentsUpload
      split
      · next s1 hreq =>
          rw [hreq] at hrequest
          exact (hrequest.trans (ih s1)).mono (by omega) (Nat.le_refl _) (Nat.le_refl _)
      · next s1 hreq =>
          rw [hreq] at hrequest
          exact hrequest.mono (by omega) (Nat.le_refl _) (Nat.le_refl _)

theorem contentsMakedirs_spends (v : Server) (dir : String) (paths : List String) (s : State) :
    Spends v (2 * paths.length) 0 0 s (contentsMakedirs v dir paths s).2 := by
  induction paths generalizing s with
  | nil => exact Spends.refl v s
  | cons path rest ih =>
      have hget := request_spends v .get path s
      rcases hg : request v .get path s with ⟨result, s1⟩
      rw [hg] at hget
      have hput := request_spends v .put path s1
      rcases hp : request v .put path s1 with ⟨made, s2⟩
      rw [hp] at hput
      have hlength : 2 * (path :: rest).length = 1 + 1 + 2 * rest.length := by
        rw [List.length_cons]
        omega
      have hend : forall t, Spends v 1 0 0 s t -> Spends v (2 * (path :: rest).length) 0 0 s t :=
        fun t h => h.mono (by omega) (Nat.le_refl _) (Nat.le_refl _)
      have hgo : Spends v (2 * (path :: rest).length) 0 0 s (contentsMakedirs v dir rest s1).2 :=
        (hget.trans (ih s1)).mono (by omega) (Nat.le_refl _) (Nat.le_refl _)
      have hmade : Spends v (2 * (path :: rest).length) 0 0 s
          (contentsMakedirs v dir rest s2).2 := by
        rw [hlength]
        exact (hget.trans hput).trans (ih s2)
      have hfailed : Spends v (2 * (path :: rest).length) 0 0 s s2 :=
        (hget.trans hput).mono (by omega) (Nat.le_refl _) (Nat.le_refl _)
      rw [contentsMakedirs, hg]
      cases result with
      | error e =>
          simp only
          split
          · rw [hp]
            cases made with
            | ok reply => exact hmade
            | error e => exact hfailed
          · exact hend s1 hget
      | ok value =>
          cases value with
          | null =>
              simp only
              rw [hp]
              cases made with
              | ok reply => exact hmade
              | error e => exact hfailed
          | obj fields =>
              simp only
              -- whether there is a type, and whether it is the directory's
              split
              · split
                · exact hgo
                · exact hend s1 hget
              · split
                · exact hgo
                · exact hend s1 hget
          | _ => exact hend s1 hget

end Transport
end Job
end MightyColab
