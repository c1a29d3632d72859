import MightyColab.Job.Status

/-!
# One pass of `status`

What a pass of the loop can do: cancel the runner past the deadline, or, with a hint at
most, make of one observation what `decide_` makes of it.
-/

namespace MightyColab
namespace Job
namespace Status

open Lib

variable {args : Args} {orphan : Bool} {deadline : Option (Rat × String)} {p : Pass}
  {staleness : WatchdogStaleness} {env env' : JobEnvelope} {observation : Observation}
  {turn : Turn}

/-!
## Before the observation
-/

theorem ensureKeepAlive_onlyHints {answer : Except String (Option String)}
    (h : ensureKeepAlive answer env = .ok env') : OnlyHints env env' := by
  unfold ensureKeepAlive at h
  split at h
  · cases h
    exact OnlyHints.refl env
  · split at h
    · cases h
    · split at h <;> cases h
      · exact addHint_onlyHints env _
      · exact OnlyHints.refl env

theorem ensureKeepAlive_ok (hint : Option String) (env : JobEnvelope) :
    exists noted, ensureKeepAlive (.ok hint) env = .ok noted := by
  unfold ensureKeepAlive
  simp only
  split
  · exact ⟨env, rfl⟩
  · cases nonempty hint with
    | none => exact ⟨env, rfl⟩
    | some text => exact ⟨env.addHint text, rfl⟩

theorem checkDeadline_onlyHints (h : (checkDeadline args deadline p env).1 = false) :
    OnlyHints env (checkDeadline args deadline p env).2 := by
  unfold checkDeadline at *
  cases deadline with
  | none => exact OnlyHints.refl env
  | some until_ =>
      simp only at *
      split
      · split
        · next hlate hpoll =>
            rw [if_pos hlate, if_pos hpoll] at h
            cases h
        · exact replaceHint_onlyHints _ _ env
      · exact OnlyHints.refl env

theorem checkDeadline_poll (h : (checkDeadline args deadline p env).1 = true) :
    args.poll = true ∧ (checkDeadline args deadline p env).2.supervisor = .finished := by
  unfold checkDeadline at *
  cases deadline with
  | none => cases h
  | some until_ =>
      simp only at *
      split
      · split
        · next hpoll => exact ⟨hpoll, rfl⟩
        · next hlate hpoll =>
            rw [if_pos hlate, if_neg hpoll] at h
            cases h
      · next hlate =>
          rw [if_neg hlate] at h
          cases h

/-!
## The pass
-/

def endedEnv (reason : String) : Bool × JobEnvelope -> JobEnvelope
  | (true, env) => { env with supervisor := .finished }
  | (false, env) => lostVerdict reason env

theorem decide_cases (h : decide_ orphan p staleness env observation = .ok turn) :
    (exists result, observation = .result result ∧
      turn = .break (absorbPayload orphan p.absorb result env)) ∨
    (exists reason recovered, endOfRunner orphan env observation = some reason ∧
      recoverOffVmResult p.offVm env = .ok recovered ∧
        turn = .break (endedEnv reason recovered)) ∨
    ((forall result, observation ≠ .result result) ∧
      endOfRunner orphan env observation = none ∧
        turn = .again (undecided p staleness env observation).1
          (undecided p staleness env observation).2) := by
  unfold decide_ at h
  split at h
  · next result =>
      cases h
      exact Or.inl ⟨result, rfl, rfl⟩
  · next hnot =>
      split at h
      · next reason hend =>
          split at h
          · cases h
          · next recovered hrecover =>
              cases h
              exact Or.inr (Or.inl ⟨reason, _, hend, hrecover, rfl⟩)
          · next noted hrecover =>
              cases h
              exact Or.inr (Or.inl ⟨reason, _, hend, hrecover, rfl⟩)
      · next hgoes =>
          cases h
          exact Or.inr (Or.inr ⟨fun result hresult => hnot result hresult, hgoes, rfl⟩)

theorem decide_ends {reason : String} {recovered : Bool × JobEnvelope}
    (hend : endOfRunner orphan env observation = some reason)
    (hrecover : recoverOffVmResult p.offVm env = .ok recovered) :
    decide_ orphan p staleness env observation = .ok (.break (endedEnv reason recovered)) := by
  unfold decide_
  split
  · cases hend
  · rw [hend]
    simp only [hrecover]
    rcases recovered with ⟨found, noted⟩
    cases found <;> rfl

theorem pass_run {hinted : JobEnvelope}
    (hintime : (checkDeadline args deadline p env).1 = false)
    (hkeep : ensureKeepAlive p.keepAlive (checkDeadline args deadline p env).2 = .ok hinted)
    (hobserve : observeRemote p.look = .ok observation) :
    pass args orphan deadline p staleness env =
      decide_ orphan p staleness hinted observation := by
  unfold pass
  rcases hdeadline : checkDeadline args deadline p env with ⟨cancelled, checked⟩
  rw [hdeadline] at hintime hkeep
  cases hintime
  simp only [Bool.false_eq_true, if_false]
  rw [hkeep, Fallible.ok_bind, hobserve, Fallible.ok_bind]

theorem pass_cases (h : pass args orphan deadline p staleness env = .ok turn) :
    ((checkDeadline args deadline p env).1 = true ∧
      turn = .break (checkDeadline args deadline p env).2) ∨
    ((checkDeadline args deadline p env).1 = false ∧
      exists hinted observation, OnlyHints env hinted ∧
        observeRemote p.look = .ok observation ∧
          decide_ orphan p staleness hinted observation = .ok turn) := by
  unfold pass at h
  have hcheck := @checkDeadline_onlyHints args deadline p env
  rcases hdeadline : checkDeadline args deadline p env with ⟨cancelled, checked⟩
  rw [hdeadline] at h hcheck
  cases cancelled with
  | true =>
      cases h
      exact Or.inl ⟨rfl, rfl⟩
  | false =>
      rcases Fallible.bind_ok h with ⟨hinted, hkeep, h⟩
      rcases Fallible.bind_ok h with ⟨observation, hobserve, h⟩
      have hhints : OnlyHints env hinted :=
        (hcheck rfl).trans (ensureKeepAlive_onlyHints hkeep)
      exact Or.inr ⟨rfl, hinted, observation, hhints, hobserve, h⟩

/-- A pass after which status goes on: some hints, and what its observation makes of the
record. -/
theorem pass_again {staleness' : WatchdogStaleness}
    (h : pass args orphan deadline p staleness env = .ok (.again staleness' env')) :
    exists hinted observation, OnlyHints env hinted ∧ observeRemote p.look = .ok observation ∧
      (forall result, observation ≠ .result result) ∧
        endOfRunner orphan hinted observation = none ∧
          undecided p staleness hinted observation = (staleness', env') := by
  rcases pass_cases h with ⟨_, hbreak⟩ | ⟨_, hinted, observation, hhints, hobserve, hdecide⟩
  · cases hbreak
  · rcases decide_cases hdecide with ⟨_, _, hbreak⟩ | ⟨_, _, _, _, hbreak⟩ |
      ⟨hresult, hend, hagain⟩
    · cases hbreak
    · cases hbreak
    · cases hagain
      exact ⟨hinted, observation, hhints, hobserve, hresult, hend, rfl⟩

end Status
end Job
end MightyColab
