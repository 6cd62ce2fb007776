import PocketShell.Path.Home
import PocketShell.Proofs.Path.Normal
import PocketShell.Proofs.Text.Cut

/-!
# Where a typed path leads

A path is resolved by following its pieces from the root or from the base
(`Path.components_resolve_eq`), so a path that ends in a slash can be resolved before what is typed
after it (`Path.components_resolve_append`), also if it begins with `~`
(`Path.components_resolve_expandHome_append`).
-/

namespace PocketShell.Path

variable {base home : String}

/-! ## Following a path -/

/-- What follows a text that is not empty does not decide whether it begins with a slash. -/
theorem beginsWith_slash_append {way : String} (h : way ≠ "") (rest : String) :
    Text.beginsWith "/" (way ++ rest) = Text.beginsWith "/" way := by
  obtain ⟨first, others, hway⟩ : ∃ first others, way.toList = first :: others :=
    List.exists_cons_of_ne_nil (by simpa using h)
  simp [Text.beginsWith, hway, List.isPrefixOf]

/-- A slash at the end is one more piece, which is empty. -/
theorem pieces_append_slash (way : String) :
    Text.pieces '/' (way ++ "/") = Text.pieces '/' way ++ [""] := by
  have hpieces : Text.pieces '/' (way ++ "/" ++ "") = Text.pieces '/' way ++ Text.pieces '/' "" :=
    Text.pieces_append '/' way ""
  rwa [String.append_empty] at hpieces

/-- What follows a slash is followed from where the path up to the slash leads. -/
theorem components_resolve_append (base way rest : String) :
    components (resolve base (way ++ "/" ++ rest)) =
      (Text.pieces '/' rest).foldl follow (components (resolve base (way ++ "/"))) := by
  have hrest : Text.pieces '/' (way ++ "/" ++ rest) =
      Text.pieces '/' way ++ Text.pieces '/' rest := Text.pieces_append '/' way rest
  rw [components_resolve_eq, components_resolve_eq, hrest, pieces_append_slash,
    List.foldl_append, List.foldl_append, List.foldl_cons, follow_empty, List.foldl_nil,
    beginsWith_slash_append (by simp)]

/-- A slash at the end of a path makes no difference: an empty piece is passed over. -/
theorem resolve_append_slash {way : String} (h : way ≠ "") :
    resolve base (way ++ "/") = resolve base way := by
  rw [resolve_eq_resolve_iff, components_resolve_eq, components_resolve_eq, pieces_append_slash,
    List.foldl_append, List.foldl_cons, follow_empty, List.foldl_nil, beginsWith_slash_append h]

/-- Slashes at the end of a path make no difference, however many there are. -/
theorem resolve_append_slashes {way : String} (h : way ≠ "") (count : Nat) :
    resolve base (way ++ String.ofList (List.replicate count '/')) = resolve base way := by
  induction count generalizing way with
  | zero => simp
  | succ count ih =>
    have hnext : way ++ String.ofList (List.replicate (count + 1) '/') =
        way ++ "/" ++ String.ofList (List.replicate count '/') := by
      rw [← String.toList_inj]
      simp [List.replicate_succ]
    rw [hnext, ih (by simp), resolve_append_slash h]

/-! ## The home directory -/

/-- A path with a slash is not `~` alone. -/
theorem ne_tilde_of_slash (way rest : String) : way ++ "/" ++ rest ≠ "~" := by
  intro heq
  have hslash : '/' ∈ (way ++ "/" ++ rest).toList := by simp
  rw [heq] at hslash
  exact absurd hslash (by decide)

/-- Before `/` the home directory is put in without its last slashes. -/
theorem exists_expandHome_tilde (home : String) :
    ∃ trimmed count, home = trimmed ++ String.ofList (List.replicate count '/') ∧
      ∀ rest, expandHome home ("~/" ++ rest) = trimmed ++ "/" ++ rest := by
  refine ⟨String.ofList (home.toList.reverse.dropWhile (· == '/')).reverse,
    (home.toList.reverse.takeWhile (· == '/')).length, ?_, fun rest => ?_⟩
  · have hslashes : home.toList.reverse.takeWhile (· == '/') =
        List.replicate (home.toList.reverse.takeWhile (· == '/')).length '/' :=
      List.eq_replicate_of_mem fun c hc => by simpa using List.mem_takeWhile_imp hc
    rw [← String.toList_inj, String.toList_append, String.toList_ofList, String.toList_ofList,
      ← List.reverse_replicate, ← hslashes, ← List.reverse_append,
      List.takeWhile_append_dropWhile, List.reverse_reverse]
  · have halone : "~/" ++ rest ≠ "~" := ne_tilde_of_slash "~" rest
    rw [expandHome, if_neg halone, Text.dropOpening?_eq_some_iff.mpr rfl]

/-- What does not begin with `~`, alone or before `/`, is left as it is. -/
theorem expandHome_eq_self {input : String} (halone : input ≠ "~")
    (hbefore : ¬ Text.beginsWith "~/" input) : expandHome home input = input := by
  rw [expandHome, if_neg halone]
  split
  · next rest hrest =>
    have hbegins := Text.beginsWith_iff_exists.mpr ⟨rest, Text.dropOpening?_eq_some_iff.mp hrest⟩
    exact absurd hbegins hbefore
  · rfl

/-- The home directory is put in before what follows a slash. -/
theorem exists_expandHome_append (home way : String) :
    ∃ expanded, ∀ rest, expandHome home (way ++ "/" ++ rest) = expanded ++ "/" ++ rest := by
  obtain ⟨trimmed, -, -, htilde⟩ := exists_expandHome_tilde home
  by_cases halone : way = "~"
  · subst halone
    exact ⟨trimmed, htilde⟩
  · by_cases hbelow : ∃ below, way = "~/" ++ below
    · obtain ⟨below, rfl⟩ := hbelow
      refine ⟨trimmed ++ "/" ++ below, fun rest => ?_⟩
      have hsplit : "~/" ++ below ++ "/" ++ rest = "~/" ++ (below ++ "/" ++ rest) := by
        simp only [String.append_assoc]
      rw [hsplit, htilde]
      simp only [String.append_assoc]
    · refine ⟨way, fun rest => expandHome_eq_self (ne_tilde_of_slash way rest) fun hbegins => ?_⟩
      rw [Text.beginsWith_iff, String.toList_append, String.toList_append] at hbegins
      obtain ⟨cs, rfl⟩ : ∃ cs, way = String.ofList cs := ⟨way.toList, String.ofList_toList.symm⟩
      match cs with
      | [] => simp at hbegins
      | [c] =>
        obtain rfl : '~' = c := by simpa using hbegins
        exact halone rfl
      | c :: d :: cs =>
        obtain ⟨rfl, rfl⟩ : '~' = c ∧ '/' = d := by simpa using hbegins
        exact hbelow ⟨String.ofList cs, by rw [← String.toList_inj]; simp⟩

/-- A way typed up to a slash can be resolved before what is typed after it. -/
theorem components_resolve_expandHome_append (base home way rest : String) :
    components (resolve base (expandHome home (way ++ "/" ++ rest))) =
      (Text.pieces '/' rest).foldl follow
        (components (resolve base (expandHome home (way ++ "/")))) := by
  obtain ⟨expanded, hexpanded⟩ := exists_expandHome_append home way
  have hway : expandHome home (way ++ "/") = expanded ++ "/" := by
    simpa using hexpanded ""
  rw [hexpanded, hway, components_resolve_append]

/-- Before `/` the home directory is put in as it is, but for slashes that lead nowhere else. -/
theorem resolve_expandHome_tilde (base home rest : String) :
    resolve base (expandHome home ("~/" ++ rest)) = resolve base (home ++ "/" ++ rest) := by
  obtain ⟨trimmed, count, hhome, htilde⟩ := exists_expandHome_tilde home
  have hslashes : home ++ "/" = trimmed ++ "/" ++ String.ofList (List.replicate count '/') := by
    rw [hhome, ← String.toList_inj]
    simp [List.replicate_succ', ← List.replicate_succ]
  rw [htilde, resolve_eq_resolve_iff, components_resolve_append, components_resolve_append,
    hslashes, resolve_append_slashes (by simp)]

/-- A slash after `~` makes no difference, unless there is no home directory. -/
theorem resolve_expandHome_slash {home : String} (h : home ≠ "") (base : String) :
    resolve base (expandHome home "~/") = resolve base (expandHome home "~") := by
  have hslash : resolve base (expandHome home "~/") = resolve base (home ++ "/") := by
    simpa using resolve_expandHome_tilde base home ""
  have hwhole : expandHome home "~" = home := if_pos rfl
  rw [hslash, hwhole, resolve_append_slash h]

end PocketShell.Path
