import Mathlib.Data.List.Basic

/-!
# One record, many copies

Processes share a record. Each looks at it, changes fields of its own copy, and saves the
copy as a whole. This is about the history of such a record, newest event first: when no
save brings a removed record back or puts a field that another process has set back to what
it was. That is so exactly when each save meets the record as its process saw it last, but
for the fields that the process has set itself.
-/

namespace MightyColab
namespace Lib
namespace SharedRecord

universe u v w x

inductive Event (Proc : Type u) (Record : Type v) (Field : Type w) where
  | looked (p : Proc)
  /-- `own` are the fields that `p` has set since it looked or saved. -/
  | saved (p : Proc) (copy : Record) (own : List Field)
  | removed (p : Proc)

variable {Proc : Type u} {Record : Type v} {Field : Type w} {Value : Field -> Type x}

def Event.actor : Event Proc Record Field -> Proc
  | looked p => p
  | saved p _ _ => p
  | removed p => p

def current (initial : Record) : List (Event Proc Record Field) -> Option Record
  | [] => some initial
  | .looked _ :: older => current initial older
  | .saved _ copy _ :: _ => some copy
  | .removed _ :: _ => none

def lastSeen [DecidableEq Proc] (initial : Record) (p : Proc) :
    List (Event Proc Record Field) -> Option Record
  | [] => none
  | .looked q :: older => if q = p then current initial older else lastSeen initial p older
  | .saved q copy _ :: older => if q = p then some copy else lastSeen initial p older
  | .removed _ :: older => lastSeen initial p older

variable (view : (f : Field) -> Record -> Value f)

def AgreeBut (fields : List Field) (a b : Record) : Prop :=
  forall f, f ∉ fields -> view f a = view f b

/-- A save of this copy would not change what others have made of the record. -/
def UpToDate (found : Option Record) (copy : Record) (own : List Field) : Prop :=
  exists record, found = some record ∧ AgreeBut view own copy record

/-- Each copy that was saved is what its process saw last, but for the fields it set. -/
def Held [DecidableEq Proc] (initial : Record) : List (Event Proc Record Field) -> Prop
  | [] => True
  | .saved p copy own :: older =>
      UpToDate view (lastSeen initial p older) copy own ∧ Held initial older
  | _ :: older => Held initial older

/-- Each save met the record as it then was, but for the fields that it set. -/
def Fresh (initial : Record) : List (Event Proc Record Field) -> Prop
  | [] => True
  | .saved _ copy own :: older =>
      UpToDate view (current initial older) copy own ∧ Fresh initial older
  | _ :: older => Fresh initial older

/-- A save came after the record was removed. -/
def Resurrected (log : List (Event Proc Record Field)) : Prop :=
  exists newer p copy own older q,
    log = newer ++ .saved p copy own :: older ∧ .removed q ∈ older

/-- A field that one process set, and that still was as it set it, was overwritten by a
process that had not looked since and did not set it. -/
def Overwritten (initial : Record) (log : List (Event Proc Record Field)) : Prop :=
  exists newer p copy own mid q theirs set older record f,
    log = newer ++ .saved p copy own :: (mid ++ .saved q theirs set :: older) ∧
    q ≠ p ∧ (forall e, e ∈ mid -> e.actor ≠ p) ∧ f ∈ set ∧ f ∉ own ∧
    current initial (mid ++ .saved q theirs set :: older) = some record ∧
    view f record = view f theirs ∧ view f copy ≠ view f record

def Kept (initial : Record) (log : List (Event Proc Record Field)) : Prop :=
  ¬Resurrected log ∧ ¬Overwritten view initial log

variable {view} {initial : Record}

theorem lastSeen_other [DecidableEq Proc] {e : Event Proc Record Field} {p : Proc}
    {older : List (Event Proc Record Field)} (h : e.actor ≠ p) :
    lastSeen initial p (e :: older) = lastSeen initial p older := by
  cases e with
  | looked q => exact if_neg h
  | saved q copy own => exact if_neg h
  | removed q => rfl

theorem UpToDate.self (record : Record) : UpToDate view (some record) record [] :=
  ⟨record, rfl, fun _ _ => rfl⟩

theorem UpToDate.set {found : Option Record} {copy copy' : Record} {own : List Field} {f : Field}
    (h : UpToDate view found copy own) (hset : forall g, g ≠ f -> view g copy' = view g copy) :
    UpToDate view found copy' (f :: own) := by
  rcases h with ⟨record, hfound, hagree⟩
  refine ⟨record, hfound, ?_⟩
  intro g hg
  have hne : g ≠ f := fun h => hg (by rw [h]; exact List.mem_cons_self)
  have hown : g ∉ own := fun h => hg (List.mem_cons_of_mem _ h)
  rw [hset g hne]
  exact hagree g hown

theorem Fresh.older {newer older : List (Event Proc Record Field)}
    (h : Fresh view initial (newer ++ older)) : Fresh view initial older := by
  induction newer with
  | nil => exact h
  | cons e rest ih =>
      cases e with
      | looked p => exact ih h
      | saved p copy own => exact ih h.2
      | removed p => exact ih h

theorem Kept.older {e : Event Proc Record Field} {older : List (Event Proc Record Field)}
    (h : Kept view initial (e :: older)) : Kept view initial older := by
  constructor
  · rintro ⟨newer, p, copy, own, rest, q, heq, hremoved⟩
    exact h.1 ⟨e :: newer, p, copy, own, rest, q, by rw [heq, List.cons_append], hremoved⟩
  · rintro ⟨newer, p, copy, own, mid, q, theirs, set, rest, record, f, heq, hfacts⟩
    exact h.2 ⟨e :: newer, p, copy, own, mid, q, theirs, set, rest, record, f,
      by rw [heq, List.cons_append], hfacts⟩

theorem removed_of_current_none {log : List (Event Proc Record Field)}
    (h : current initial log = none) : exists q, .removed q ∈ log := by
  induction log with
  | nil => cases h
  | cons e older ih =>
      cases e with
      | looked p =>
          rcases ih h with ⟨q, hq⟩
          exact ⟨q, List.mem_cons_of_mem _ hq⟩
      | saved p copy own => cases h
      | removed p => exact ⟨p, List.mem_cons_self⟩

theorem Fresh.current_none {log : List (Event Proc Record Field)} {q : Proc}
    (h : Fresh view initial log) (hremoved : .removed q ∈ log) :
    current initial log = none := by
  induction log with
  | nil => cases hremoved
  | cons e older ih =>
      cases e with
      | looked p => exact ih h (by simpa using hremoved)
      | saved p copy own =>
          rcases h with ⟨⟨record, hcurrent, _⟩, holder⟩
          have hnone := ih holder (by simpa using hremoved)
          rw [hnone] at hcurrent
          cases hcurrent
      | removed p => rfl

theorem Fresh.setter [DecidableEq Proc] {log : List (Event Proc Record Field)} {p : Proc}
    {seen record : Record} {f : Field} (h : Fresh view initial log)
    (hseen : lastSeen initial p log = some seen) (hcurrent : current initial log = some record)
    (hchanged : view f seen ≠ view f record) :
    exists mid q theirs set older, log = mid ++ .saved q theirs set :: older ∧ q ≠ p ∧
      (forall e, e ∈ mid -> e.actor ≠ p) ∧ f ∈ set ∧ view f record = view f theirs := by
  induction log generalizing record with
  | nil => cases hseen
  | cons e older ih =>
      -- an event of another that has not set the field is passed over
      have hpass : forall record', e.actor ≠ p -> Fresh view initial older ->
          current initial older = some record' -> view f record = view f record' ->
          exists mid q theirs set rest, e :: older = mid ++ .saved q theirs set :: rest ∧
            q ≠ p ∧ (forall e', e' ∈ mid -> e'.actor ≠ p) ∧ f ∈ set ∧
            view f record = view f theirs := by
        intro record' hactor hfresh hrecord hsame
        rw [lastSeen_other hactor] at hseen
        rw [hsame] at hchanged
        rcases ih hfresh hseen hrecord hchanged with
          ⟨mid, q, theirs, set, rest, heq, hq, hmid, hset, hview⟩
        refine ⟨e :: mid, q, theirs, set, rest, by rw [heq, List.cons_append], hq, ?_, hset,
          hsame.trans hview⟩
        intro e' he'
        rcases List.mem_cons.mp he' with rfl | he'
        · exact hactor
        · exact hmid e' he'
      cases e with
      | removed q => cases hcurrent
      | looked q =>
          by_cases hq : q = p
          · rw [lastSeen, if_pos hq] at hseen
            rw [current, hseen, Option.some.injEq] at hcurrent
            exact absurd (congrArg (view f) hcurrent) hchanged
          · exact hpass record hq h hcurrent rfl
      | saved q theirs set =>
          rw [current, Option.some.injEq] at hcurrent
          by_cases hq : q = p
          · rw [lastSeen, if_pos hq, hcurrent, Option.some.injEq] at hseen
            exact absurd (congrArg (view f) hseen.symm) hchanged
          · rcases h with ⟨⟨record', hrecord, hagree⟩, hfresh⟩
            by_cases hset : f ∈ set
            · exact ⟨[], q, theirs, set, older, rfl, hq, nofun, hset,
                congrArg (view f) hcurrent.symm⟩
            · refine hpass record' hq hfresh hrecord ?_
              rw [← hcurrent]
              exact hagree f hset

theorem Fresh.kept {log : List (Event Proc Record Field)} (h : Fresh view initial log) :
    Kept view initial log := by
  constructor
  · rintro ⟨newer, p, copy, own, older, q, rfl, hremoved⟩
    rcases h.older with ⟨⟨record, hcurrent, _⟩, holder⟩
    rw [holder.current_none hremoved] at hcurrent
    cases hcurrent
  · rintro ⟨newer, p, copy, own, mid, q, theirs, set, older, record, f, rfl, _, _, _, hown,
      hrecord, _, hchanged⟩
    rcases h.older with ⟨⟨record', hcurrent, hagree⟩, _⟩
    rw [hrecord] at hcurrent
    cases hcurrent
    exact hchanged (hagree f hown)

theorem Kept.fresh [DecidableEq Proc] {log : List (Event Proc Record Field)}
    (hheld : Held view initial log) (h : Kept view initial log) : Fresh view initial log := by
  induction log with
  | nil => trivial
  | cons e older ih =>
      cases e with
      | looked p => exact ih hheld h.older
      | removed p => exact ih hheld h.older
      | saved p copy own =>
          rcases hheld with ⟨⟨seen, hseen, hheldCopy⟩, holder⟩
          have hfresh := ih holder h.older
          refine ⟨?_, hfresh⟩
          cases hcurrent : current initial older with
          | none =>
              rcases removed_of_current_none hcurrent with ⟨q, hq⟩
              exact absurd ⟨[], p, copy, own, older, q, rfl, hq⟩ h.1
          | some record =>
              refine ⟨record, rfl, ?_⟩
              intro f hown
              by_contra hchanged
              rw [hheldCopy f hown] at hchanged
              rcases hfresh.setter hseen hcurrent hchanged with
                ⟨mid, q, theirs, set, rest, rfl, hq, hmid, hset, hview⟩
              rw [← hheldCopy f hown] at hchanged
              exact h.2 ⟨[], p, copy, own, mid, q, theirs, set, rest, record, f, rfl, hq, hmid,
                hset, hown, hcurrent, hview, hchanged⟩

theorem kept_iff_fresh [DecidableEq Proc] {log : List (Event Proc Record Field)}
    (hheld : Held view initial log) : Kept view initial log <-> Fresh view initial log :=
  ⟨Kept.fresh hheld, Fresh.kept⟩

end SharedRecord
end Lib
end MightyColab
