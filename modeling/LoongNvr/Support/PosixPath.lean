import Mathlib.Data.List.Infix
import Mathlib.Tactic.TypeStar

/-!
# Support — PosixPath

Paths as byte strings, and where they lead when symbolic links are left aside.  A place is the list
of the names from the root down.

* `place`: where a path leads from a working directory.
* `cString`: what of a string the operating system is given.
* `place_of_noParent`: a path that nowhere goes up leads to its names, one below the other.
* `place_join`: a path in a directory.
-/

namespace Support

abbrev Bytes := List UInt8

namespace PosixPath

def slash : UInt8 := 47

def dot : UInt8 := 46

/-- What a component of a path does. -/
inductive Step
  | stay
  | up
  | down (name : Bytes)
  deriving DecidableEq

/-- An empty component and `.` stay, `..` goes up. -/
def Step.of (component : Bytes) : Step :=
  if component = [] ∨ component = [dot] then .stay
  else if component = [dot, dot] then .up
  else .down component

/-- There is nothing above the root. -/
def Step.take (dir : List Bytes) : Step → List Bytes
  | .stay => dir
  | .up => dir.dropLast
  | .down name => dir ++ [name]

/-- The steps of a path. -/
def steps (path : Bytes) : List Step := (path.splitOn slash).map Step.of

/-- Steps from a directory, one after the other. -/
def walk (dir : List Bytes) (steps : List Step) : List Bytes := steps.foldl Step.take dir

/-- The directory a path is taken from. -/
def base (cwd : List Bytes) (path : Bytes) : List Bytes :=
  if path.head? = some slash then [] else cwd

/-- **Where a path leads**, from the root or from the working directory. -/
def place (cwd : List Bytes) (path : Bytes) : List Bytes := walk (base cwd path) (steps path)

/-- The names in a path. -/
def names (path : Bytes) : List Bytes :=
  (steps path).filterMap fun
    | .down name => some name
    | _ => none

/-- The string as it is given to the operating system: it ends at a zero byte. -/
def cString (s : Bytes) : Bytes := s.takeWhile (· ≠ 0)

/-! ### Paths that go up nowhere -/

/-- Splitting gives parts, the first of them from the start on. -/
theorem splitOn_parts (sep : UInt8) (s : Bytes) :
    (∀ part ∈ (s.splitOn sep).head?, part <+: s) ∧ ∀ part ∈ s.splitOn sep, part <:+: s := by
  induction s with
  | nil => simp [List.splitOn_nil]
  | cons c s ih =>
      obtain ⟨hfirst, hall⟩ := ih
      rw [List.splitOn_cons_eq_if_modifyHead]
      split
      · refine ⟨fun part hpart => ?_, fun part hpart => ?_⟩
        · obtain rfl : [] = part := Option.some.inj hpart
          exact List.nil_prefix
        · rcases List.mem_cons.mp hpart with rfl | hrest
          · exact List.nil_infix
          · exact List.infix_cons (hall part hrest)
      · cases hsplit : s.splitOn sep with
        | nil => exact absurd hsplit (List.splitOn_ne_nil sep s)
        | cons first rest =>
            rw [hsplit] at hfirst hall
            have hprefix : c :: first <+: c :: s :=
              List.cons_prefix_cons.mpr ⟨rfl, hfirst first rfl⟩
            refine ⟨fun part hpart => ?_, fun part hpart => ?_⟩
            · obtain rfl : c :: first = part := Option.some.inj hpart
              exact hprefix
            · rcases List.mem_cons.mp hpart with rfl | hrest
              · exact hprefix.isInfix
              · exact List.infix_cons (hall part (List.mem_cons_of_mem _ hrest))

/-- Only two dots go up. -/
theorem infix_of_up {path : Bytes} (h : .up ∈ steps path) : [dot, dot] <:+: path := by
  obtain ⟨component, hmem, hup⟩ := List.mem_map.mp h
  have hdots : component = [dot, dot] := by
    rw [Step.of] at hup
    split at hup
    · cases hup
    · split at hup
      · assumption
      · cases hup
  exact hdots ▸ (splitOn_parts slash path).2 component hmem

/-- The names of steps. -/
theorem walk_of_noUp {dir : List Bytes} {steps : List Step} (h : .up ∉ steps) :
    walk dir steps = dir ++ steps.filterMap fun
      | .down name => some name
      | _ => none := by
  induction steps generalizing dir with
  | nil => simp [walk]
  | cons step steps ih =>
      obtain ⟨hstep, hrest⟩ := not_or.mp (mt List.mem_cons.mpr h)
      have hwalk : walk dir (step :: steps) = walk (step.take dir) steps := rfl
      rw [hwalk, ih hrest]
      cases step with
      | stay => rfl
      | up => exact absurd rfl hstep
      | down name => simp [Step.take]

/-- **A path without two dots** leads to its names, one below the other. -/
theorem place_of_noParent (cwd : List Bytes) {path : Bytes} (h : ¬ [dot, dot] <:+: path) :
    place cwd path = base cwd path ++ names path :=
  walk_of_noUp (mt infix_of_up h)

/-! ### Paths in a directory -/

theorem walk_append (dir : List Bytes) (steps steps' : List Step) :
    walk dir (steps ++ steps') = walk (walk dir steps) steps' := List.foldl_append

theorem steps_join (dir path : Bytes) : steps (dir ++ slash :: path) = steps dir ++ steps path := by
  rw [steps, List.splitOn_append_cons_self, List.map_append]
  rfl

/-- **A path in a directory** leads there from the directory. -/
theorem place_join (cwd : List Bytes) {dir : Bytes} (hdir : dir ≠ []) (path : Bytes) :
    place cwd (dir ++ slash :: path) = walk (place cwd dir) (steps path) := by
  have hbase : base cwd (dir ++ slash :: path) = base cwd dir := by
    simp [base, List.head?_append_of_ne_nil _ hdir]
  rw [place, hbase, steps_join, walk_append]
  rfl

theorem cString_append {s t : Bytes} (h : 0 ∉ s) : cString (s ++ t) = s ++ cString t := by
  refine List.takeWhile_append_of_pos fun c hc => ?_
  rw [decide_eq_true_eq]
  rintro rfl
  exact h hc

end PosixPath

end Support
