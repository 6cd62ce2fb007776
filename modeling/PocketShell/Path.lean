import PocketShell.Text.Split

/-!
# Paths

A path is text with `/` between its components. Its component list is found by walking along it
from the root: `..` steps back, but never above the root, and `.` and empty components stay. Its
normal form is written back from that list.
-/

namespace PocketShell.Path

/-- Follows one component from the place reached so far. -/
def follow (place : List String) (component : String) : List String :=
  if component = ".." then place.dropLast
  else if component = "." ∨ component = "" then place
  else place ++ [component]

/-- The names on the way from the root to the place that a path denotes. -/
def components (path : String) : List String :=
  (Text.pieces '/' path).foldl follow []

/-- The absolute path along a list of names. -/
def ofComponents (names : List String) : String :=
  "/" ++ "/".intercalate names

/-- The path in its shortest absolute form. -/
def normalize (path : String) : String :=
  ofComponents (components path)

/-- The absolute form of `input`, a relative one being taken from the directory `base`. -/
def resolve (base input : String) : String :=
  if Text.beginsWith "/" input then normalize input
  else if input = "" then normalize base
  else normalize (base ++ "/" ++ input)

/-- The directory that holds the place a path denotes; the root holds itself. -/
def parent (path : String) : String :=
  ofComponents (components path).dropLast

/-- The names on the way to the directory that holds the place, and its own name; the root has
none. -/
def splitLeaf? (path : String) : Option (List String × String) :=
  (components path).getLast?.map fun leaf => ((components path).dropLast, leaf)

/-- A path is split before the last of its components. -/
theorem splitLeaf?_eq_some_iff {path leaf : String} {names : List String} :
    splitLeaf? path = some (names, leaf) ↔ components path = names ++ [leaf] := by
  rw [splitLeaf?, Option.map_eq_some_iff]
  constructor
  · rintro ⟨last, hlast, hsplit⟩
    obtain ⟨front, hfront⟩ := List.getLast?_eq_some_iff.mp hlast
    simp_all
  · intro h
    exact ⟨leaf, by simp [h]⟩

/-- Only the paths that lead to the root have no name of their own. -/
theorem splitLeaf?_eq_none_iff {path : String} :
    splitLeaf? path = none ↔ components path = [] := by
  rw [splitLeaf?, Option.map_eq_none_iff, List.getLast?_eq_none_iff]

/-- A name that can stand in a path for itself. -/
def IsComponent (name : String) : Prop :=
  name ≠ "" ∧ name ≠ "." ∧ name ≠ ".." ∧ '/' ∉ name.toList

instance (name : String) : Decidable (IsComponent name) :=
  inferInstanceAs (Decidable (_ ∧ _))

example : components "/home//user/./../alice/" = ["home", "alice"] := by decide +kernel

example : resolve "/tmp" "../../etc" = "/etc" := by decide +kernel

end PocketShell.Path
