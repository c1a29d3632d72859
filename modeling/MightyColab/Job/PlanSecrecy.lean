import MightyColab.Job.PlanStore

/-!
# What a persisted plan shows of its URLs

Which URLs `write_plan_file` and `JobStore.write_spec` write without a query and without a
user. A URL without a query is written as it is.
-/

namespace MightyColab
namespace Job

open Lib
open PlanDump PlanStore

namespace PlanSecrecy

/-- `JobStore.write_spec`. -/
def writeSpec (tools : UrlTools) (spec : JobSpec) : Json :=
  (redact tools (ofSpec Json.str spec)).1

/-- Neither a query nor a user, whether or not `urlsplit` accepts the text. -/
def Bare (text : String) : Prop :=
  (Url.parts text.toList).query = [] ∧ '@' ∉ (Url.parts text.toList).netloc

instance (text : String) : Decidable (Bare text) :=
  inferInstanceAs (Decidable
    ((Url.parts text.toList).query = [] ∧ '@' ∉ (Url.parts text.toList).netloc))

/-- A URL of which something stays: its user where there is no query or no URL, and what
stands before an `@` right after the scheme. -/
def Exposed (tools : UrlTools) (url : String) : Prop :=
  match tools.urlsplit url with
  | none => '@' ∈ (Url.parts url.toList).netloc
  | some p =>
      if p.query = [] then '@' ∈ p.netloc
      else p.netloc = [] ∧ p.scheme ≠ [] ∧ '@' ∈ Url.before '/' p.path

/-!
## One URL
-/

variable {tools : UrlTools} {url : String} {p : Url.Parts}

theorem redactedUrl_query : (Url.parts (tools.redactedUrl url).toList).query = [] :=
  Url.parts_query_absent UrlTools.redactedUrl_noQuestion

theorem publicNetloc_noAt :
    '@' ∉ Url.writeNetloc (UrlTools.hostText tools.unicode p) (Url.port p.netloc) := by
  intro hmem
  rcases Url.mem_writeNetloc hmem with hhost | habs | habs | habs | habs
  · rw [UrlTools.hostText_eq, Url.mem_lowerHost ⟨by decide, by decide⟩] at hhost
    unfold Url.hostinfo at hhost
    dsimp only at hhost
    split at hhost
    · exact Url.not_mem_afterLast _ _ (Url.mem_of_after (Url.mem_of_before hhost))
    · exact Url.not_mem_afterLast _ _ (Url.mem_of_before hhost)
  all_goals exact absurd habs (by decide)

def afterScheme (tools : UrlTools) (url : String) (p : Url.Parts) : List Char :=
  '/' :: '/' :: (Url.writeNetloc (UrlTools.hostText tools.unicode p) (Url.port p.netloc) ++
    (p.path ++ '#' :: tools.referenceFragment url))

theorem redactedUrl_some (hsplit : tools.urlsplit url = some p) :
    (tools.redactedUrl url).toList = p.scheme ++ ':' :: afterScheme tools url p := by
  rw [UrlTools.redactedUrl_toList, UrlTools.canonicalUrl_some hsplit]
  simp [afterScheme]

theorem afterScheme_kept (hsplit : tools.urlsplit url = some p) :
    forall c, c ∈ afterScheme tools url p -> c ∉ Url.bytesToRemove := by
  have hshape := UrlTools.urlsplit_shape hsplit
  intro c hc
  simp only [afterScheme, List.mem_cons, List.mem_append] at hc
  rcases hc with rfl | rfl | hin | hin | rfl | hin
  · decide
  · decide
  · exact UrlTools.publicNetloc_kept hshape c hin
  · exact hshape.kept c (List.mem_append_right _ (List.mem_append_right _ hin))
  · decide
  · exact UrlTools.referenceFragment_kept c hin

theorem redactedUrl_netloc_bare (hsplit : tools.urlsplit url = some p) (h : p.scheme = []) :
    (Url.parts (tools.redactedUrl url).toList).netloc = [] := by
  have htext : (tools.redactedUrl url).toList = ':' :: afterScheme tools url p := by
    rw [redactedUrl_some hsplit, h]
    rfl
  have hclean : Url.clean (':' :: afterScheme tools url p) =
      ':' :: afterScheme tools url p := by
    apply Url.clean_of (by decide)
    intro d hd
    rcases List.mem_cons.mp hd with rfl | hin
    · decide
    · exact afterScheme_kept hsplit d hin
  rw [htext, Url.parts_netloc, hclean]
  rfl

theorem redactedUrl_netloc_scheme (hsplit : tools.urlsplit url = some p) (h : p.scheme ≠ []) :
    (Url.parts (tools.redactedUrl url).toList).netloc =
      (Url.cutNetloc (afterScheme tools url p)).1 := by
  rcases (UrlTools.urlsplit_shape hsplit).scheme with hnil | ⟨hscheme, hlower⟩
  · exact absurd hnil h
  · rw [redactedUrl_some hsplit,
      Url.parts_scheme hscheme hlower (afterScheme_kept hsplit)]

theorem takeWhile_path {path : List Char} (hquestion : '?' ∉ path) (hhash : '#' ∉ path) :
    (path.takeWhile fun c => !Url.endsNetloc c) = Url.before '/' path := by
  rw [Url.before]
  induction path with
  | nil => rfl
  | cons c rest ih =>
      have hc : (!Url.endsNetloc c) = decide (c ≠ '/') := by
        have hne : c ≠ '?' := Ne.symm (List.ne_of_not_mem_cons hquestion)
        have hne' : c ≠ '#' := Ne.symm (List.ne_of_not_mem_cons hhash)
        by_cases hslash : c = '/' <;> simp [Url.endsNetloc, hne, hne', hslash]
      rw [List.takeWhile_cons, List.takeWhile_cons, hc,
        ih (List.not_mem_of_not_mem_cons hquestion) (List.not_mem_of_not_mem_cons hhash)]

theorem redactedUrl_user (hsplit : tools.urlsplit url = some p) :
    '@' ∈ (Url.parts (tools.redactedUrl url).toList).netloc <->
      p.netloc = [] ∧ p.scheme ≠ [] ∧ '@' ∈ Url.before '/' p.path := by
  have hshape := UrlTools.urlsplit_shape hsplit
  by_cases hscheme : p.scheme = []
  · rw [redactedUrl_netloc_bare hsplit hscheme]
    simp [hscheme]
  · rw [redactedUrl_netloc_scheme hsplit hscheme]
    by_cases hnetloc : p.netloc = []
    · have hwritten : Url.writeNetloc (UrlTools.hostText tools.unicode p)
          (Url.port p.netloc) = [] := by
        rw [UrlTools.hostText, Url.hostname, hnetloc]
        rfl
      have hcut : (Url.cutNetloc (afterScheme tools url p)).1 =
          p.path.takeWhile fun c => !Url.endsNetloc c := by
        rw [afterScheme, hwritten, List.nil_append]
        exact Url.takeWhile_cutOff (Or.inr ⟨'#', _, rfl, Or.inr rfl⟩)
      rw [hcut, takeWhile_path hshape.path.1 hshape.path.2]
      simp [hnetloc, hscheme]
    · have hrest : p.path ++ '#' :: tools.referenceFragment url = [] ∨
          exists c more, p.path ++ '#' :: tools.referenceFragment url = c :: more ∧
            Url.endsNetloc c = true := by
        right
        rcases hshape.rooted hnetloc with hnil | hhead
        · exact ⟨'#', _, by rw [hnil]; rfl, by decide⟩
        · cases hpath : p.path with
          | nil => exact ⟨'#', _, rfl, by decide⟩
          | cons c more =>
              rw [hpath, List.head?_cons, Option.some.injEq] at hhead
              exact ⟨c, _, rfl, by rw [hhead]; decide⟩
      rw [afterScheme, Url.cutNetloc_write (UrlTools.publicNetloc_ends hshape) hrest]
      simp [hnetloc, publicNetloc_noAt]

theorem redactedUrl_user_none (hsplit : tools.urlsplit url = none) :
    (Url.parts (tools.redactedUrl url).toList).netloc = (Url.parts url.toList).netloc := by
  rw [UrlTools.redactedUrl_toList, UrlTools.canonicalUrl_none hsplit]
  exact (Url.parts_cut _ (Or.inr ⟨'#', _, rfl, Or.inr rfl⟩)).2.1

theorem bare_redactOne_iff (tools : UrlTools) (url : String) :
    Bare (redactOne tools url) <-> ¬Exposed tools url := by
  unfold Bare Exposed
  cases hsplit : tools.urlsplit url with
  | none =>
      by_cases hquestion : '?' ∈ url.toList
      · have hquery : tools.hasUrlQuery url = true := by
          simp [UrlTools.hasUrlQuery, hsplit, hquestion]
        rw [redactOne_query hquery, redactedUrl_query, redactedUrl_user_none hsplit]
        simp
      · have hquery : tools.hasUrlQuery url = false := by
          simp [UrlTools.hasUrlQuery, hsplit, hquestion]
        rw [redactOne_plain hquery, Url.parts_query_absent hquestion]
        simp
  | some p =>
      have hparts := (UrlTools.urlsplit_eq hsplit).1
      by_cases hempty : p.query = []
      · have hquery : tools.hasUrlQuery url = false := by
          simp [UrlTools.hasUrlQuery, hsplit, hempty]
        rw [redactOne_plain hquery, ← hparts]
        simp [hempty]
      · have hquery : tools.hasUrlQuery url = true := by
          simp [UrlTools.hasUrlQuery, hsplit, hempty]
        rw [redactOne_query hquery, redactedUrl_query, redactedUrl_user hsplit]
        simp [hempty]

/-!
## What is persisted
-/

theorem redact_bare_iff (tools : UrlTools) (payload : Json) :
    (forall w, w ∈ urlStrings none (redact tools payload).1 -> Bare w) <->
      forall u, u ∈ urlStrings none payload -> ¬Exposed tools u := by
  rw [redact, urlStrings_mapStr]
  simp only [List.mem_map]
  constructor
  · intro h u hu
    exact (bare_redactOne_iff tools u).mp (h _ ⟨u, hu, rfl⟩)
  · rintro h w ⟨u, hu, rfl⟩
    exact (bare_redactOne_iff tools u).mpr (h u hu)

/-- The URLs of the plan file and of the spec file are bare exactly when none of those that
they are written from is exposed. -/
theorem persisted_bare_iff (tools : UrlTools) (plan : Plan) (spec : JobSpec) :
    (forall payload, (writePlanFile tools plan).plan = .json payload ∨
        writeSpec tools spec = payload ->
      forall w, w ∈ urlStrings none payload -> Bare w) <->
      (forall u, u ∈ plan.urlTexts -> ¬Exposed tools u) ∧
        forall u, u ∈ spec.urls -> ¬Exposed tools u := by
  have hplan := redact_bare_iff tools (ofPlan plan)
  have hspec := redact_bare_iff tools (ofSpec Json.str spec)
  rw [urls_plan] at hplan
  rw [urls_spec] at hspec
  rw [← hplan, ← hspec]
  constructor
  · intro h
    exact ⟨h _ (Or.inl rfl), h _ (Or.inr rfl)⟩
  · rintro ⟨hplanBare, hspecBare⟩ payload hpayload
    rcases hpayload with hin | rfl
    · cases hin
      exact hplanBare
    · exact hspecBare

/-- A URL with a user and no query is written as it is. -/
theorem persisted_user : exists tools plan payload,
    (writePlanFile tools plan).plan = .json payload ∧
      exists w, w ∈ urlStrings none payload ∧ ¬Bare w := by
  refine ⟨asciiTools [] noDigests, oneUrlPlan "https://user:password@h/x", _, rfl,
    "https://user:password@h/x", ?_, by decide⟩
  show _ ∈ urlStrings none (redact _ (ofPlan _)).1
  rw [redact, urlStrings_mapStr, urls_plan]
  exact List.mem_map.mpr ⟨_, List.mem_cons_self, by decide⟩

end PlanSecrecy
end Job
end MightyColab
