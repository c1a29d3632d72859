import Mathlib.Data.List.Nodup
import Mathlib.Data.List.Infix
import MightyColab.Lib.Prog

/-!
# Walking a tree that changes

A walk of a directory tree that lists each directory when it gets there, twice: once for
the directories in it and once for what it finds. The listings may come from any program,
so that the tree may change between any two of them. As long as no listing names an entry
twice, no path is found twice.
-/

namespace MightyColab
namespace Lib
namespace TreeWalk

variable {state error Name : Type}

/-- The names in a directory, and which of them are directories; nothing where it cannot be
listed. -/
abbrev Scan (state error Name : Type) :=
  List Name -> Prog state error (Option (List (Name × Bool)))

variable (scan : Scan state error Name)

def childrenOf (dir : List Name) : Prog state error (List (List Name)) := do
  match ← scan dir with
  | none => pure []
  | some entries => pure (entries.map fun entry => dir ++ [entry.1])

def childrenOfAll : List (List Name) -> Prog state error (List (List Name))
  | [] => pure []
  | dir :: rest => do
      let first ← childrenOf scan dir
      let more ← childrenOfAll rest
      pure (first ++ more)

def directoriesIn (dir : List Name) (entries : List (Name × Bool)) : List (List Name) :=
  (entries.filter (·.2)).map fun entry => dir ++ [entry.1]

/-- The paths below the directories in those on the stack. A walk that lists more than
`budget` directories does not end here. -/
def walk : Nat -> List (List Name) -> Prog state error (List (List Name))
  | _, [] => pure []
  | 0, _ :: _ => Prog.exit
  | budget + 1, dir :: stack => do
      match ← scan dir with
      | none => walk budget stack
      | some entries =>
          let found ← childrenOfAll scan (directoriesIn dir entries)
          let more ← walk budget (directoriesIn dir entries ++ stack)
          pure (found ++ more)

/-- `Path.rglob("*")`. -/
def rglob (budget : Nat) : Prog state error (List (List Name)) := do
  let first ← childrenOf scan []
  let more ← walk scan budget [[]]
  pure (first ++ more)

/-!
## No path twice
-/

def Lists (good : Name -> Prop) : Prop :=
  forall dir s entries s', scan dir s = (.ok (some entries), s') ->
    (entries.map Prod.fst).Nodup ∧ forall entry, entry ∈ entries -> good entry.1

/-- Neither path leads to the other. -/
def Apart (p q : List Name) : Prop := ¬p <+: q ∧ ¬q <+: p

variable {scan} {good : Name -> Prop} {s s' : state} {dir : List Name}
variable {paths dirs : List (List Name)} {entries : List (Name × Bool)}

theorem append_injective (dir : List Name) : Function.Injective fun name => dir ++ [name] := by
  intro a b h
  exact (List.cons.inj (List.append_cancel_left h)).1

theorem childrenOf_ok (hlists : Lists scan good)
    (h : childrenOf scan dir s = (.ok paths, s')) :
    paths.Nodup ∧ forall p, p ∈ paths -> exists name, good name ∧ p = dir ++ [name] := by
  rcases Prog.bind_eq_ok h with ⟨listing, t, hscan, hrest⟩
  cases listing with
  | none =>
      rw [← (Prog.pure_eq_ok hrest).1]
      exact ⟨List.nodup_nil, fun p hp => nomatch hp⟩
  | some entries =>
      rcases hlists dir s entries t hscan with ⟨hnodup, hgood⟩
      rw [← (Prog.pure_eq_ok hrest).1]
      constructor
      · have hmap := hnodup.map (append_injective dir)
        rwa [List.map_map] at hmap
      · intro p hp
        rcases List.mem_map.mp hp with ⟨entry, hentry, rfl⟩
        exact ⟨entry.1, hgood entry hentry, rfl⟩

theorem childrenOfAll_ok (hlists : Lists scan good) (hdirs : dirs.Nodup)
    (h : childrenOfAll scan dirs s = (.ok paths, s')) :
    paths.Nodup ∧ forall p, p ∈ paths ->
      exists dir name, dir ∈ dirs ∧ good name ∧ p = dir ++ [name] := by
  induction dirs generalizing s s' paths with
  | nil =>
      rw [← (Prog.pure_eq_ok h).1]
      exact ⟨List.nodup_nil, fun p hp => nomatch hp⟩
  | cons dir rest ih =>
      rcases Prog.bind_eq_ok h with ⟨first, t, hfirst, h⟩
      rcases Prog.bind_eq_ok h with ⟨more, t', hmore, h⟩
      rw [← (Prog.pure_eq_ok h).1]
      rcases List.nodup_cons.mp hdirs with ⟨hnot, hrest⟩
      rcases childrenOf_ok hlists hfirst with ⟨hfirstNodup, hfirstOf⟩
      rcases ih hrest hmore with ⟨hmoreNodup, hmoreOf⟩
      constructor
      · refine List.nodup_append.mpr ⟨hfirstNodup, hmoreNodup, ?_⟩
        intro p hp q hq heq
        rcases hfirstOf p hp with ⟨name, _, rfl⟩
        rcases hmoreOf q hq with ⟨other, name', hother, _, rfl⟩
        rw [(List.append_inj' heq rfl).1] at hnot
        exact hnot hother
      · intro p hp
        rcases List.mem_append.mp hp with hin | hin
        · rcases hfirstOf p hin with ⟨name, hname, rfl⟩
          exact ⟨dir, name, List.mem_cons_self, hname, rfl⟩
        · rcases hmoreOf p hin with ⟨other, name, hother, hname, rfl⟩
          exact ⟨other, name, List.mem_cons_of_mem _ hother, hname, rfl⟩

theorem directoriesIn_ok (hnodup : (entries.map Prod.fst).Nodup)
    (hgood : forall entry, entry ∈ entries -> good entry.1) :
    (directoriesIn dir entries).Nodup ∧ forall p, p ∈ directoriesIn dir entries ->
      exists name, good name ∧ p = dir ++ [name] := by
  constructor
  · have hfilter := hnodup.sublist ((List.filter_sublist (p := (·.2))).map Prod.fst)
    have hmap := hfilter.map (append_injective dir)
    rwa [List.map_map] at hmap
  · intro p hp
    rcases List.mem_map.mp hp with ⟨entry, hentry, rfl⟩
    exact ⟨entry.1, hgood entry (List.mem_of_mem_filter hentry), rfl⟩

theorem Apart.child {p q : List Name} (h : Apart p q) (name : Name) : Apart (p ++ [name]) q := by
  constructor
  · intro hinitial
    exact h.1 ((List.prefix_append p [name]).trans hinitial)
  · intro hinitial
    rcases List.prefix_concat_iff.mp hinitial with heq | hshorter
    · exact h.1 (heq ▸ List.prefix_append p [name])
    · exact h.2 hshorter

theorem apart_children {p q : List Name} (hp : exists name : Name, p = dir ++ [name])
    (hq : exists name : Name, q = dir ++ [name]) (hne : p ≠ q) : Apart p q := by
  rcases hp with ⟨a, rfl⟩
  rcases hq with ⟨b, rfl⟩
  constructor
  · intro hinitial
    exact hne (hinitial.eq_of_length (by simp))
  · intro hinitial
    exact hne (hinitial.eq_of_length (by simp)).symm

theorem apart_push {stack : List (List Name)} (hstack : (dir :: stack).Pairwise Apart)
    (hnodup : dirs.Nodup) (hdirs : forall p, p ∈ dirs -> exists name, p = dir ++ [name]) :
    (dirs ++ stack).Pairwise Apart := by
  rcases List.pairwise_cons.mp hstack with ⟨hdir, hrest⟩
  refine List.pairwise_append.mpr ⟨?_, hrest, ?_⟩
  · refine hnodup.imp_of_mem ?_
    intro p q hp hq hne
    exact apart_children (hdirs p hp) (hdirs q hq) hne
  · intro p hp q hq
    rcases hdirs p hp with ⟨name, rfl⟩
    exact (hdir q hq).child name

theorem grandchildren_ok (hlists : Lists scan good) (hnames : forall n, n ∈ dir -> good n)
    (hdirs : dirs.Nodup) (hdirsOf : forall p, p ∈ dirs -> exists name, good name ∧
      p = dir ++ [name])
    (h : childrenOfAll scan dirs s = (.ok paths, s')) :
    paths.Nodup ∧ forall p, p ∈ paths -> (forall n, n ∈ p -> good n) ∧ dir <+: p ∧
      p.length = dir.length + 2 := by
  rcases childrenOfAll_ok hlists hdirs h with ⟨hnodup, hof⟩
  refine ⟨hnodup, ?_⟩
  intro p hp
  rcases hof p hp with ⟨child, name, hchild, hname, rfl⟩
  rcases hdirsOf child hchild with ⟨middle, hmiddle, rfl⟩
  refine ⟨?_, ?_, by simp⟩
  · intro n hn
    simp only [List.mem_append, List.mem_singleton] at hn
    rcases hn with (hin | rfl) | rfl
    · exact hnames n hin
    · exact hmiddle
    · exact hname
  · rw [List.append_assoc]
    exact List.prefix_append _ _

/-- What a walk finds lies below the directories that it begins with, each path once. -/
theorem walk_ok (hlists : Lists scan good) {budget : Nat} {stack : List (List Name)}
    (hstack : stack.Pairwise Apart) (hnames : forall p, p ∈ stack -> forall n, n ∈ p -> good n)
    (h : walk scan budget stack s = (.ok paths, s')) :
    paths.Nodup ∧ forall p, p ∈ paths -> (forall n, n ∈ p -> good n) ∧
      exists dir, dir ∈ stack ∧ dir <+: p ∧ dir.length + 2 ≤ p.length := by
  induction budget generalizing stack s s' paths with
  | zero =>
      cases stack with
      | nil =>
          rw [← (Prog.pure_eq_ok h).1]
          exact ⟨List.nodup_nil, fun p hp => nomatch hp⟩
      | cons dir stack => cases h
  | succ budget ih =>
      cases stack with
      | nil =>
          rw [← (Prog.pure_eq_ok h).1]
          exact ⟨List.nodup_nil, fun p hp => nomatch hp⟩
      | cons dir stack =>
          rcases List.pairwise_cons.mp hstack with ⟨hdir, hrest⟩
          have hdirNames := hnames dir List.mem_cons_self
          have hrestNames : forall p, p ∈ stack -> forall n, n ∈ p -> good n := fun p hp =>
            hnames p (List.mem_cons_of_mem _ hp)
          rcases Prog.bind_eq_ok h with ⟨listing, t, hscan, h⟩
          cases listing with
          | none =>
              rcases ih hrest hrestNames h with ⟨hnodup, hof⟩
              refine ⟨hnodup, ?_⟩
              intro p hp
              rcases hof p hp with ⟨hgood, top, htop, hbelow⟩
              exact ⟨hgood, top, List.mem_cons_of_mem _ htop, hbelow⟩
          | some entries =>
              rcases hlists dir s entries t hscan with ⟨hentries, hgood⟩
              rcases @directoriesIn_ok _ good dir entries hentries hgood with ⟨hdirs, hdirsOf⟩
              rcases Prog.bind_eq_ok h with ⟨found, t', hfound, h⟩
              rcases Prog.bind_eq_ok h with ⟨more, t'', hmore, h⟩
              rw [← (Prog.pure_eq_ok h).1]
              rcases grandchildren_ok hlists hdirNames hdirs hdirsOf hfound with
                ⟨hfoundNodup, hfoundOf⟩
              have hpush := apart_push hstack hdirs fun p hp =>
                (hdirsOf p hp).imp fun _ hname => hname.2
              have hpushNames : forall p, p ∈ directoriesIn dir entries ++ stack ->
                  forall n, n ∈ p -> good n := by
                intro p hp n hn
                rcases List.mem_append.mp hp with hin | hin
                · rcases hdirsOf p hin with ⟨name, hname, rfl⟩
                  rcases List.mem_append.mp hn with hup | hlast
                  · exact hdirNames n hup
                  · rwa [List.mem_singleton.mp hlast]
                · exact hrestNames p hin n hn
              rcases ih hpush hpushNames hmore with ⟨hmoreNodup, hmoreOf⟩
              constructor
              · -- The paths found here are two names longer than `dir`; the later ones are
                -- longer still, or not below `dir`.
                refine List.nodup_append.mpr ⟨hfoundNodup, hmoreNodup, ?_⟩
                rintro p hp q hq rfl
                rcases hfoundOf p hp with ⟨_, hinitial, hlength⟩
                rcases (hmoreOf p hq).2 with ⟨top, htop, hbelow, hlonger⟩
                rcases List.mem_append.mp htop with hin | hin
                · rcases hdirsOf top hin with ⟨name, _, rfl⟩
                  rw [List.length_append, List.length_singleton] at hlonger
                  omega
                · rcases List.prefix_or_prefix_of_prefix hinitial hbelow with hle | hle
                  · exact (hdir top hin).1 hle
                  · exact (hdir top hin).2 hle
              · intro p hp
                rcases List.mem_append.mp hp with hin | hin
                · rcases hfoundOf p hin with ⟨hgood, hinitial, hlength⟩
                  exact ⟨hgood, dir, List.mem_cons_self, hinitial, by omega⟩
                · rcases hmoreOf p hin with ⟨hgood, top, htop, hbelow, hlonger⟩
                  refine ⟨hgood, ?_⟩
                  rcases List.mem_append.mp htop with hchild | hold
                  · rcases hdirsOf top hchild with ⟨name, _, rfl⟩
                    rw [List.length_append, List.length_singleton] at hlonger
                    exact ⟨dir, List.mem_cons_self,
                      (List.prefix_append dir [name]).trans hbelow, by omega⟩
                  · exact ⟨top, List.mem_cons_of_mem _ hold, hbelow, hlonger⟩

theorem rglob_ok (hlists : Lists scan good) {budget : Nat}
    (h : rglob scan budget s = (.ok paths, s')) :
    paths.Nodup ∧ forall p, p ∈ paths -> p ≠ [] ∧ forall n, n ∈ p -> good n := by
  rcases Prog.bind_eq_ok h with ⟨first, t, hfirst, h⟩
  rcases Prog.bind_eq_ok h with ⟨more, t', hmore, h⟩
  rw [← (Prog.pure_eq_ok h).1]
  rcases childrenOf_ok hlists hfirst with ⟨hfirstNodup, hfirstOf⟩
  rcases walk_ok hlists (List.pairwise_singleton _ _)
    (fun p hp n hn => by rw [List.mem_singleton.mp hp] at hn; cases hn) hmore with
    ⟨hmoreNodup, hmoreOf⟩
  constructor
  · refine List.nodup_append.mpr ⟨hfirstNodup, hmoreNodup, ?_⟩
    rintro p hp q hq rfl
    rcases hfirstOf p hp with ⟨name, _, rfl⟩
    rcases (hmoreOf _ hq).2 with ⟨top, _, _, hlonger⟩
    simp only [List.nil_append, List.length_singleton] at hlonger
    omega
  · intro p hp
    rcases List.mem_append.mp hp with hin | hin
    · rcases hfirstOf p hin with ⟨name, hname, rfl⟩
      refine ⟨by simp, ?_⟩
      intro n hn
      rwa [List.mem_singleton.mp hn]
    · rcases hmoreOf p hin with ⟨hgood, top, _, _, hlonger⟩
      refine ⟨?_, hgood⟩
      rintro rfl
      rw [List.length_nil] at hlonger
      omega

end TreeWalk
end Lib
end MightyColab
