import PocketShell.Path

/-!
# Normal paths

A normal path denotes the same place as the path that it is the normal form of
(`Path.components_normalize`), so it is its own normal form, from wherever it is resolved
(`Path.resolve_normalize`); what is resolved is normal (`Path.exists_resolve_eq_normalize`). Which
paths are written in normal form (`Path.IsNormal`) can be read off what is between their slashes
(`Path.isNormal_append_iff`).
-/

namespace PocketShell.Path

/-! ## Components -/

/-- Following a piece without a slash leaves components only: dots and the empty piece are never put
in. -/
theorem forall_isComponent_follow {place : List String} {piece : String}
    (hplace : ∀ name ∈ place, IsComponent name) (hpiece : '/' ∉ piece.toList) :
    ∀ name ∈ follow place piece, IsComponent name := by
  unfold follow
  split
  · exact fun name hname => hplace name (List.dropLast_subset _ hname)
  · next hup =>
    split
    · exact hplace
    · next hstay =>
      rw [not_or] at hstay
      intro name hname
      rcases List.mem_append.mp hname with hname | hname
      · exact hplace name hname
      · rw [List.mem_singleton.mp hname]
        exact ⟨hstay.2, hstay.1, hup, hpiece⟩

/-- The names on the way to a place can all stand in a path for themselves. -/
theorem isComponent_of_mem_components {path name : String} (h : name ∈ components path) :
    IsComponent name := by
  have hfold : ∀ (pieces : List String) (place : List String),
      (∀ piece ∈ pieces, '/' ∉ piece.toList) → (∀ name ∈ place, IsComponent name) →
      ∀ name ∈ pieces.foldl follow place, IsComponent name := by
    intro pieces
    induction pieces with
    | nil => exact fun place _ hplace => hplace
    | cons piece pieces ih =>
      intro place hpieces hplace
      exact ih (follow place piece) (fun other hother => hpieces other (.tail _ hother))
        (forall_isComponent_follow hplace (hpieces piece (.head _)))
  exact hfold _ [] (fun piece hpiece => Text.not_mem_of_mem_pieces hpiece) (by simp) name h

/-- An empty piece is passed over. -/
@[simp] theorem follow_empty (place : List String) : follow place "" = place := by
  simp [follow]

/-- A component leads one step down. -/
theorem follow_of_isComponent {name : String} (h : IsComponent name) (place : List String) :
    follow place name = place ++ [name] := by
  obtain ⟨hempty, hdot, hup, -⟩ := h
  simp [follow, hempty, hdot, hup]

/-- Components lead down one after another. -/
theorem foldl_follow_of_isComponent {names : List String} (h : ∀ name ∈ names, IsComponent name)
    (place : List String) : names.foldl follow place = place ++ names := by
  induction names generalizing place with
  | nil => simp
  | cons name names ih =>
    rw [List.foldl_cons, follow_of_isComponent (h name (.head _)),
      ih fun other hother => h other (.tail _ hother), List.append_assoc]
    rfl

/-! ## Written paths -/

/-- Between its slashes a path has the names it is made of; it begins with a slash, so an empty
piece comes first. -/
theorem pieces_ofComponents {names : List String} (h : ∀ name ∈ names, '/' ∉ name.toList) :
    Text.pieces '/' (ofComponents names) = "" :: if names = [] then [""] else names := by
  have htoList : (ofComponents names).toList =
      [] ++ '/' :: ['/'].intercalate (names.map String.toList) := by
    simp [ofComponents, String.toList_intercalate]
  rw [Text.pieces, htoList, List.splitOn_append_cons_self]
  split
  · next hnames => subst hnames; rfl
  · next hnames =>
    rw [List.splitOn_intercalate]
    · simp [List.map_map, Function.comp_def]
    · simpa using h
    · simpa using hnames

/-- The place that a list of names is the way to is found along that list. -/
theorem components_ofComponents {names : List String} (h : ∀ name ∈ names, IsComponent name) :
    components (ofComponents names) = names := by
  rw [components, pieces_ofComponents fun name hname => (h name hname).2.2.2, List.foldl_cons,
    follow_empty]
  split
  · next hnames => rw [hnames, List.foldl_cons, follow_empty, List.foldl_nil]
  · rw [foldl_follow_of_isComponent h, List.nil_append]

/-- Different components make different paths. -/
theorem ofComponents_inj {names others : List String}
    (hnames : ∀ name ∈ names, IsComponent name) (hothers : ∀ name ∈ others, IsComponent name) :
    ofComponents names = ofComponents others ↔ names = others := by
  constructor
  · intro h
    rw [← components_ofComponents hnames, h, components_ofComponents hothers]
  · exact congrArg ofComponents

/-- Names are found again in their path exactly if each of them is a component. -/
theorem components_ofComponents_eq_iff {names : List String} :
    components (ofComponents names) = names ↔ ∀ name ∈ names, IsComponent name := by
  constructor
  · intro h name hname
    rw [← h] at hname
    exact isComponent_of_mem_components hname
  · exact components_ofComponents

/-! ## Normal forms -/

/-- The normal form of a path has the same components. -/
theorem components_normalize (path : String) : components (normalize path) = components path :=
  components_ofComponents fun _ => isComponent_of_mem_components

/-- The parent has the components without the last one. -/
theorem components_parent (path : String) : components (parent path) = (components path).dropLast :=
  components_ofComponents fun _ hname =>
    isComponent_of_mem_components (List.dropLast_subset _ hname)

/-- What is put after a path and a slash is followed from where the path leads. -/
theorem components_append (path rest : String) :
    components (path ++ "/" ++ rest) =
      (Text.pieces '/' rest).foldl follow (components path) := by
  have hpieces : Text.pieces '/' (path ++ "/" ++ rest) =
      Text.pieces '/' path ++ Text.pieces '/' rest := Text.pieces_append '/' path rest
  rw [components, hpieces, List.foldl_append, ← components]

/-- A path from the root is not resolved below another one. -/
theorem resolve_of_beginsWith {base input : String} (h : Text.beginsWith "/" input) :
    resolve base input = normalize input := by
  rw [resolve, if_pos h]

/-- A path that does not begin at the root is normalized after the base. -/
theorem resolve_of_not_beginsWith {base input : String} (h : ¬ Text.beginsWith "/" input) :
    resolve base input = normalize (base ++ "/" ++ input) := by
  rw [resolve, if_neg h]
  split
  · next hempty =>
    have hpieces : Text.pieces '/' "" = [""] := rfl
    rw [hempty, normalize, normalize, components_append, hpieces, List.foldl_cons, follow_empty,
      List.foldl_nil]
  · rfl

/-- The pieces of a path are followed one after another, from the root or from the base. -/
theorem components_resolve_eq (base input : String) :
    components (resolve base input) =
      (Text.pieces '/' input).foldl follow
        (if Text.beginsWith "/" input then [] else components base) := by
  split
  · next h => rw [resolve_of_beginsWith h, components_normalize, components]
  · next h => rw [resolve_of_not_beginsWith h, components_normalize, components_append]

/-- A component is one piece. -/
theorem IsComponent.pieces_eq {name : String} (h : IsComponent name) :
    Text.pieces '/' name = [name] := by
  obtain ⟨-, -, -, hslash⟩ := h
  rw [Text.pieces, List.splitOn_eq_splitOnP, List.splitOnP_eq_singleton]
  · simp
  · exact fun c hc => beq_false_of_ne fun hmark => hslash (hmark ▸ hc)

/-- What begins with a component does not begin with a slash. -/
theorem IsComponent.not_beginsWith {name : String} (h : IsComponent name) (rest : String) :
    ¬ Text.beginsWith "/" (name ++ rest) := by
  obtain ⟨hempty, -, -, hslash⟩ := h
  obtain ⟨first, others, hname⟩ : ∃ first others, name.toList = first :: others :=
    List.exists_cons_of_ne_nil (by simpa using hempty)
  have hfirst : '/' ≠ first := by
    rintro rfl
    exact hslash (hname ▸ List.mem_cons_self)
  simp [Text.beginsWith, hname, List.isPrefixOf, hfirst]

/-- A name that can stand for itself leads one step down from the directory that it is resolved
in. -/
theorem components_resolve {name : String} (h : IsComponent name) (base : String) :
    components (resolve base name) = components base ++ [name] := by
  have hrelative : ¬ Text.beginsWith "/" name := by simpa using h.not_beginsWith ""
  rw [components_resolve_eq, h.pieces_eq, if_neg hrelative, List.foldl_cons, List.foldl_nil,
    follow_of_isComponent h]

/-- A normal form is its own. -/
theorem normalize_normalize (path : String) : normalize (normalize path) = normalize path := by
  rw [normalize, components_normalize, normalize]

/-- A path that is resolved is in normal form. -/
theorem exists_resolve_eq_normalize (base input : String) :
    ∃ path, resolve base input = normalize path := by
  by_cases h : Text.beginsWith "/" input
  · exact ⟨_, resolve_of_beginsWith h⟩
  · exact ⟨_, resolve_of_not_beginsWith h⟩

/-- What a path resolves to is in normal form. -/
theorem normalize_resolve (base input : String) :
    normalize (resolve base input) = resolve base input := by
  obtain ⟨path, hpath⟩ := exists_resolve_eq_normalize base input
  rw [hpath, normalize_normalize]

/-- Where a path leads is written along the names on the way. -/
theorem resolve_eq_ofComponents_iff {base input : String} {names : List String}
    (h : ∀ name ∈ names, IsComponent name) :
    resolve base input = ofComponents names ↔ components (resolve base input) = names := by
  constructor
  · intro heq
    rw [heq, components_ofComponents h]
  · rintro rfl
    exact (normalize_resolve base input).symm

/-- Two paths resolve to the same if what they resolve to has the same components. -/
theorem resolve_eq_resolve_iff {base other input path : String} :
    resolve base input = resolve other path ↔
      components (resolve base input) = components (resolve other path) := by
  constructor
  · exact congrArg components
  · intro h
    rw [← normalize_resolve base input, normalize, h, ← normalize, normalize_resolve]

/-- A path made of components begins with a slash. -/
theorem beginsWith_ofComponents (names : List String) :
    Text.beginsWith "/" (ofComponents names) := by
  simp [Text.beginsWith, ofComponents]

/-- **A normal path is its own normal form**, from wherever it is resolved. -/
theorem resolve_normalize (base path : String) :
    resolve base (normalize path) = normalize path := by
  have habsolute : Text.beginsWith "/" (normalize path) := beginsWith_ofComponents _
  rw [resolve_of_beginsWith habsolute, normalize_normalize]

/-- The path is written in its normal form. -/
def IsNormal (path : String) : Prop :=
  normalize path = path

instance (path : String) : Decidable (IsNormal path) :=
  inferInstanceAs (Decidable (_ = _))

/-- What normalizing gives is normal. -/
theorem isNormal_normalize (path : String) : IsNormal (normalize path) :=
  normalize_normalize path

/-- A normal path begins with a slash. -/
theorem IsNormal.beginsWith {path : String} (h : IsNormal path) : Text.beginsWith "/" path := by
  rw [← h]
  exact beginsWith_ofComponents _

/-- A normal path resolves to itself, below whatever path. -/
theorem IsNormal.resolve_eq {path : String} (h : IsNormal path) (base : String) :
    resolve base path = path := by
  rw [← h, resolve_normalize]

/-- A normal path is written along a list of names that can stand for themselves. -/
theorem isNormal_iff {path : String} :
    IsNormal path ↔ ∃ names, (∀ name ∈ names, IsComponent name) ∧ path = ofComponents names := by
  constructor
  · intro h
    exact ⟨components path, fun _ => isComponent_of_mem_components, h.symm⟩
  · rintro ⟨names, hnames, rfl⟩
    rw [IsNormal, normalize, components_ofComponents hnames]

/-- A path other than the root is normal if there is nothing to be resolved between its slashes. -/
theorem isNormal_append_iff {rest : String} (h : rest ≠ "") :
    IsNormal ("/" ++ rest) ↔ ∀ piece ∈ Text.pieces '/' rest, IsComponent piece := by
  have hrest : "/".intercalate (Text.pieces '/' rest) = rest := Text.intercalate_pieces '/' rest
  constructor
  · intro hnormal
    obtain ⟨names, hnames, hpath⟩ := isNormal_iff.mp hnormal
    have hpieces := pieces_ofComponents fun name hname => (hnames name hname).2.2.2
    have hsplit : Text.pieces '/' ("/" ++ rest) = "" :: Text.pieces '/' rest :=
      Text.pieces_append '/' "" rest
    rw [← hpath, hsplit, List.cons.injEq] at hpieces
    by_cases hroot : names = []
    · rw [hpieces.2, if_pos hroot] at hrest
      exact absurd hrest.symm h
    · rw [hpieces.2, if_neg hroot]
      exact hnames
  · intro hpieces
    exact isNormal_iff.mpr ⟨_, hpieces, by rw [ofComponents, hrest]⟩

end PocketShell.Path
