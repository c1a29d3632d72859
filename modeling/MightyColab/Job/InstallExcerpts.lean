import MightyColab.Job.ExcerptStarts

/-!
# The excerpts of an installer's output

`_KERNEL_BODY` cuts the beginning and the end from what an installer has written and redacts
each alone; `redact_attempt` redacts every string of the attempt once more.
-/

namespace MightyColab
namespace Job

namespace Redaction

variable {alpha : Type} (k : Carrier alpha) (words : Words)

/-!
## The attempt
-/

/-- `OUTPUT_HEAD`. -/
def outputHeadLength : Nat := 4000

/-- `OUTPUT_TAIL`. -/
def outputTailLength : Nat := 12000

/-- `_redact(output[:HEAD])`. -/
def outputHead (output : List alpha) : List alpha := redact k words (output.take outputHeadLength)

/-- `_redact(output[-TAIL:])`. -/
def outputTail (output : List alpha) : List alpha :=
  redact k words (output.drop (output.length - outputTailLength))

inductive Value (alpha : Type) where
  | text (characters : List alpha)
  | list (items : List (Value alpha))
  | dict (entries : List (String × Value alpha))
  | number (n : Rat)
  | bool (b : Bool)
  | none

structure InstallRun (alpha : Type) where
  installer : List alpha
  version : List alpha
  command : List (List alpha)
  index : List (String × List alpha)
  exitCode : Option Int
  timedOut : Bool
  seconds : Rat
  output : List alpha

/-- The `attempt` that is printed. -/
def attempt (run : InstallRun alpha) : List (String × Value alpha) :=
  [("installer", .text run.installer),
    ("version", .text run.version),
    ("command", .list (run.command.map fun part => .text (redact k words part))),
    ("index", .dict (run.index.map fun entry => (entry.1, .text (redact k words entry.2)))),
    ("exit_code", match run.exitCode with
      | some code => .number code
      | none => .none),
    ("timed_out", .bool run.timedOut),
    ("seconds", .number run.seconds),
    ("output_head", .text (outputHead k words run.output)),
    ("output_tail", .text (outputTail k words run.output))]

mutual

def clean : Value alpha -> Value alpha
  | .text characters => .text (redact k words characters)
  | .list items => .list (cleanItems items)
  | .dict entries => .dict (cleanEntries entries)
  | value => value

def cleanItems : List (Value alpha) -> List (Value alpha)
  | [] => []
  | item :: items => clean item :: cleanItems items

def cleanEntries : List (String × Value alpha) -> List (String × Value alpha)
  | [] => []
  | (key, value) :: entries => (key, clean value) :: cleanEntries entries

end

def redactAttempt (attempt : List (String × Value alpha)) : List (String × Value alpha) :=
  cleanEntries k words attempt

/-!
## Marked attempts
-/

mutual

/-- No character of a value has a mark. -/
def Value.Unmarked : Value (Char × Bool) -> Prop
  | .text characters => Redaction.Unmarked characters
  | .list items => UnmarkedItems items
  | .dict entries => UnmarkedEntries entries
  | _ => True

def UnmarkedItems : List (Value (Char × Bool)) -> Prop
  | [] => True
  | item :: items => item.Unmarked ∧ UnmarkedItems items

def UnmarkedEntries : List (String × Value (Char × Bool)) -> Prop
  | [] => True
  | entry :: entries => entry.2.Unmarked ∧ UnmarkedEntries entries

end

def InstallRun.marked (run : InstallRun Char) (output : List (Char × Bool)) :
    InstallRun (Char × Bool) where
  installer := mark false run.installer
  version := mark false run.version
  command := run.command.map (mark false)
  index := run.index.map fun entry => (entry.1, mark false entry.2)
  exitCode := run.exitCode
  timedOut := run.timedOut
  seconds := run.seconds
  output := output

variable {k words}

theorem unmarked_redact {text : List (Char × Bool)} (h : Unmarked text) :
    Unmarked (redact marked words text) := by
  rw [redact_eq]
  exact unmarked_queryOut (unmarked_userOut h)

mutual

theorem unmarked_clean : forall value : Value (Char × Bool), value.Unmarked ->
    (clean marked words value).Unmarked
  | .text characters, h => by
      rw [Value.Unmarked] at h
      rw [clean, Value.Unmarked]
      exact unmarked_redact h
  | .list items, h => by
      rw [Value.Unmarked] at h
      rw [clean, Value.Unmarked]
      exact unmarked_cleanItems items h
  | .dict entries, h => by
      rw [Value.Unmarked] at h
      rw [clean, Value.Unmarked]
      exact unmarked_cleanEntries entries h
  | .number _, h => h
  | .bool _, h => h
  | .none, h => h

theorem unmarked_cleanItems : forall items : List (Value (Char × Bool)), UnmarkedItems items ->
    UnmarkedItems (cleanItems marked words items)
  | [], h => h
  | item :: items, h => by
      rw [UnmarkedItems] at h
      rw [cleanItems, UnmarkedItems]
      exact ⟨unmarked_clean item h.left, unmarked_cleanItems items h.right⟩

theorem unmarked_cleanEntries : forall entries : List (String × Value (Char × Bool)),
    UnmarkedEntries entries -> UnmarkedEntries (cleanEntries marked words entries)
  | [], h => h
  | (key, value) :: entries, h => by
      rw [UnmarkedEntries] at h
      rw [cleanEntries, UnmarkedEntries]
      exact ⟨unmarked_clean value h.left, unmarked_cleanEntries entries h.right⟩

end

theorem unmarked_items {items : List (List Char)} : UnmarkedItems
    ((items.map (mark false)).map fun part => .text (redact marked words part)) := by
  induction items with
  | nil => trivial
  | cons item items ih =>
      rw [List.map_cons, List.map_cons, UnmarkedItems, Value.Unmarked]
      exact ⟨unmarked_redact (unmarked_mark item), ih⟩

theorem unmarked_entries {entries : List (String × List Char)} : UnmarkedEntries
    ((entries.map fun entry => (entry.1, mark false entry.2)).map fun entry =>
      (entry.1, .text (redact marked words entry.2))) := by
  induction entries with
  | nil => trivial
  | cons entry entries ih =>
      rw [List.map_cons, List.map_cons, UnmarkedEntries, Value.Unmarked]
      exact ⟨unmarked_redact (unmarked_mark entry.2), ih⟩

theorem unmarked_attempt {run : InstallRun Char} {output : List (Char × Bool)} :
    UnmarkedEntries (attempt marked words (run.marked output)) <->
      Unmarked (outputHead marked words output) ∧ Unmarked (outputTail marked words output) := by
  have hexit : Value.Unmarked (match run.exitCode with
      | some code => .number code
      | none => .none) := by
    cases run.exitCode <;> trivial
  unfold attempt
  simp only [UnmarkedEntries, Value.Unmarked, InstallRun.marked]
  constructor
  · rintro ⟨_, _, _, _, _, _, _, hhead, htail, _⟩
    exact ⟨hhead, htail⟩
  · rintro ⟨hhead, htail⟩
    exact ⟨unmarked_mark _, unmarked_mark _, unmarked_items, unmarked_entries, hexit, trivial,
      trivial, hhead, htail, trivial⟩

/-!
## What the excerpts show
-/

theorem outputHead_marked (output : List (Char × Bool)) :
    (outputHead marked words output).map Prod.fst =
      outputHead plain words (output.map Prod.fst) := by
  unfold outputHead
  rw [redact_marked, List.map_take]

theorem outputTail_marked (output : List (Char × Bool)) :
    (outputTail marked words output).map Prod.fst =
      outputTail plain words (output.map Prod.fst) := by
  unfold outputTail
  rw [redact_marked, List.map_drop, List.length_map]

theorem headSafe_take {output : List Char} {n : Nat} :
    HeadSafe words (output.take n) (output.drop n) <->
      forall t : List (Char × Bool), t.map Prod.fst = output ->
        Unmarked (redact marked words t) -> Unmarked (redact marked words (t.take n)) := by
  constructor
  · rintro hsafe t rfl hfull
    refine hsafe (t.take n) (t.drop n) (List.map_take ..) (List.map_drop ..) ?_
    rwa [List.take_append_drop]
  · intro hall a b ha hb hfull
    have hlength : (a ++ b).take n = a := by
      have hle := congrArg List.length ha
      have hrest := congrArg List.length hb
      rw [List.length_map, List.length_take] at hle
      rw [List.length_map, List.length_drop] at hrest
      by_cases hshort : output.length ≤ n
      · rw [List.eq_nil_of_length_eq_zero (by omega : b.length = 0), List.append_nil]
        exact List.take_of_length_le (by omega)
      · exact List.take_left' (by omega)
    have hsafe := hall (a ++ b) (by rw [List.map_append, ha, hb, List.take_append_drop]) hfull
    rwa [hlength] at hsafe

theorem tailSafe_drop {output : List Char} {n : Nat} (hn : n ≤ output.length) :
    TailSafe words (output.take n) (output.drop n) <->
      forall t : List (Char × Bool), t.map Prod.fst = output ->
        Unmarked (redact marked words t) -> Unmarked (redact marked words (t.drop n)) := by
  constructor
  · rintro hsafe t rfl hfull
    refine hsafe (t.take n) (t.drop n) (List.map_take ..) (List.map_drop ..) ?_
    rwa [List.take_append_drop]
  · intro hall a b ha hb hfull
    have hlength : a.length = n := by
      have hle := congrArg List.length ha
      rw [List.length_map, List.length_take] at hle
      omega
    have hsafe := hall (a ++ b) (by rw [List.map_append, ha, hb, List.take_append_drop]) hfull
    rwa [List.drop_left' hlength] at hsafe

/-- The attempt, as printed and as stored, shows nothing that redacting the whole output takes
out, exactly where the first excerpt ends inside of no user name and no query and the last
begins where a reader of its own misses none. -/
theorem excerpts_hide_iff (words : Words) (run : InstallRun Char) :
    (forall output : List (Char × Bool), output.map Prod.fst = run.output ->
      Unmarked (redact marked words output) ->
        UnmarkedEntries (attempt marked words (run.marked output)) ∧
        UnmarkedEntries (redactAttempt marked words (attempt marked words (run.marked output)))) <->
    (¬ CutsName words (run.output.take outputHeadLength) (run.output.drop outputHeadLength) ∧
      ¬ CutsQuery words (run.output.take outputHeadLength) (run.output.drop outputHeadLength)) ∧
    (¬ LosesName words (run.output.take (run.output.length - outputTailLength))
        (run.output.drop (run.output.length - outputTailLength)) ∧
      ¬ LosesQuery words (run.output.take (run.output.length - outputTailLength))
        (run.output.drop (run.output.length - outputTailLength)) ∧
      ¬ LosesQuestion words (run.output.take (run.output.length - outputTailLength))
        (run.output.drop (run.output.length - outputTailLength))) := by
  rw [← head_safe_iff, ← tail_safe_iff, headSafe_take, tailSafe_drop (Nat.sub_le _ _)]
  have hlength : forall output : List (Char × Bool), output.map Prod.fst = run.output ->
      output.length = run.output.length := fun output h => by rw [← h, List.length_map]
  constructor
  · intro hall
    refine ⟨fun t ht hfull => ?_, fun t ht hfull => ?_⟩
    · exact (unmarked_attempt.mp (hall t ht hfull).left).left
    · have htail := (unmarked_attempt.mp (hall t ht hfull).left).right
      rwa [outputTail, hlength t ht] at htail
  · rintro ⟨hhead, htail⟩ output houtput hfull
    have hprinted : UnmarkedEntries (attempt marked words (run.marked output)) := by
      refine unmarked_attempt.mpr ⟨hhead output houtput hfull, ?_⟩
      rw [outputTail, hlength output houtput]
      exact htail output houtput hfull
    exact ⟨hprinted, unmarked_cleanEntries _ hprinted⟩

def cutRun : InstallRun Char where
  installer := "pip".toList
  version := "pip 24.1.2".toList
  command := ["pip".toList, "install".toList]
  index := []
  exitCode := some 1
  timedOut := false
  seconds := 1
  output := List.replicate 3990 ' ' ++ "http://".toList ++ "use".toList ++ "r@host".toList

theorem InQuery.question {tail text : List alpha} (h : InQuery k text tail) :
    exists question, question ∈ text ∧ k.glyph question = '?' := by
  rcases h with ⟨before, question, between, rfl, hquestion, _⟩
  exact ⟨question, by simp, hquestion⟩

theorem cutRun_cuts : CutsName asciiWords (cutRun.output.take outputHeadLength)
    (cutRun.output.drop outputHeadLength) := by
  have hlength : (List.replicate 3990 ' ' ++ "http://".toList ++ "use".toList).length =
      outputHeadLength := by
    rw [List.length_append, List.length_append, List.length_replicate,
      show "http://".toList.length = 7 from by decide,
      show "use".toList.length = 3 from by decide]
    rfl
  have hspaces : forall c, c ∈ List.replicate 3990 ' ' -> c = ' ' :=
    fun c hc => List.eq_of_mem_replicate hc
  have hurl : "http://".toList = "http".toList ++ "://".toList := by decide
  rw [show cutRun.output.take outputHeadLength = _ from List.take_left' hlength,
    show cutRun.output.drop outputHeadLength = _ from List.drop_left' hlength]
  refine ⟨List.replicate 3990 ' ' ++ "http://".toList, "use".toList, rfl, ?_, by decide,
    ?_, by decide, ?_⟩
  · refine ⟨List.replicate 3990 ' ' ++ "http".toList, by rw [hurl, List.append_assoc], ?_⟩
    refine ⟨List.replicate 3990 ' ', 'h', "ttp".toList, ?_, by decide, ?_, ?_⟩
    · rw [show "http".toList = 'h' :: "ttp".toList from by decide]
    · have hall : "ttp".toList.all schemeChar = true := by decide
      exact List.all_eq_true.mp hall
    · rw [List.getLast?_replicate]
      rfl
  · have hall : "use".toList.all userChar = true := by decide +kernel
    exact List.all_eq_true.mp hall
  · rintro ⟨hquery, _⟩
    rcases hquery.question with ⟨question, hmem, hquestion⟩
    have hnone : "http://".toList.all (fun c => c != '@' && c != '?') = true := by decide
    have hfree : forall c, c ∈ List.replicate 3990 ' ' ++ "http://".toList -> c ≠ '@' ∧ c ≠ '?' := by
      intro c hc
      rcases List.mem_append.mp hc with hc | hc
      · rw [hspaces c hc]
        decide
      · simpa using List.all_eq_true.mp hnone c hc
    rw [subUser_eq, userOut_none fun c hc => (hfree c hc).left] at hmem
    exact (hfree question hmem).right hquestion

/-- The `use` of `http://user@host` is printed. -/
theorem cut_name_printed :
    ¬ forall (words : Words) (run : InstallRun Char) (output : List (Char × Bool)),
      output.map Prod.fst = run.output -> Unmarked (redact marked words output) ->
        UnmarkedEntries (attempt marked words (run.marked output)) ∧
        UnmarkedEntries (redactAttempt marked words (attempt marked words (run.marked output))) := by
  intro h
  refine cutsName_shows cutRun_cuts (headSafe_take.mpr fun t ht hfull => ?_)
  exact (unmarked_attempt.mp (h asciiWords cutRun t ht hfull).left).left

end Redaction
end Job
end MightyColab
