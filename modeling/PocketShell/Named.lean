/-!
# Values under names, in order

`Named α` holds values under names in the order in which the names came. A name that is put again
keeps its place, a name that is erased and put again comes last. Directories and environments are
of this kind. Main statements: `get?_put`, `names_put` and `names_erase` say what the two writing
operations do to the values and to the order; `names_merge_nodup`, merging leaves each name once.
-/

namespace PocketShell

/-- Values under names, in the order in which the names came. -/
abbrev Named (α : Type) := List (String × α)

namespace Named

variable {α : Type}

/-- The names, in order. -/
def names (entries : Named α) : List String :=
  entries.map (·.1)

/-- The value under a name. -/
def get? (entries : Named α) (name : String) : Option α :=
  entries.lookup name

/-- Some value stands under the name. -/
def has (entries : Named α) (name : String) : Bool :=
  (entries.get? name).isSome

/-- Gives a name a value: at the place of the name if it has one, else at the end. -/
def put : Named α → String → α → Named α
  | [], name, value => [(name, value)]
  | (other, old) :: rest, name, value =>
    if other = name then (other, value) :: rest else (other, old) :: put rest name value

/-- Takes out a name with its value; the others keep their order. -/
def erase : Named α → String → Named α
  | [], _ => []
  | (other, value) :: rest, name =>
    if other = name then rest else (other, value) :: erase rest name

/-- Applies `f` to the value under a name. -/
def modify : Named α → String → (α → α) → Named α
  | [], _, _ => []
  | (other, value) :: rest, name, f =>
    if other = name then (other, f value) :: rest else (other, value) :: modify rest name f

/-- Leaves each name once: with its last value, at the place of its first. -/
def merge : Named α → Named α
  | [] => []
  | (name, value) :: rest =>
    (name, ((merge rest).get? name).getD value) :: (merge rest).erase name

/-! ## What the operations do -/

@[simp] theorem get?_nil (name : String) : get? ([] : Named α) name = none := rfl

/-- The first entry with a name is the one that is found. -/
theorem get?_cons (other : String) (value : α) (rest : Named α) (name : String) :
    get? ((other, value) :: rest) name = if other = name then some value else get? rest name := by
  rw [get?, List.lookup_cons]
  by_cases h : other = name
  · simp [h]
  · rw [if_neg h, beq_false_of_ne (Ne.symm h)]
    rfl

/-- Under the name that is written stands what was written, and under every other name what was
there. -/
theorem get?_put (entries : Named α) (name : String) (value : α) (other : String) :
    get? (put entries name value) other =
      if name = other then some value else get? entries other := by
  induction entries with
  | nil => rw [put, get?_cons]
  | cons entry rest ih =>
    obtain ⟨first, old⟩ := entry
    rw [put]
    split
    · next h => subst h; simp only [get?_cons]; split <;> simp_all
    · next h =>
      simp only [get?_cons, ih]
      split
      · next h' => subst h'; rw [if_neg (Ne.symm h)]
      · rfl

/-- A name that is new comes last, and one that is there stays where it is. -/
theorem names_put (entries : Named α) (name : String) (value : α) :
    names (put entries name value) =
      if name ∈ names entries then names entries else names entries ++ [name] := by
  induction entries with
  | nil => rfl
  | cons entry rest ih =>
    obtain ⟨first, old⟩ := entry
    rw [put]
    split
    · next h => subst h; simp [names]
    · next h =>
      have h' : name ≠ first := Ne.symm h
      simp only [names, List.map_cons, List.mem_cons, h', false_or] at ih ⊢
      rw [ih]
      by_cases hmem : name ∈ rest.map (·.1) <;> simp [hmem]

/-- With an entry its name goes, and the others keep their order. -/
theorem names_erase (entries : Named α) (name : String) :
    names (erase entries name) = (names entries).erase name := by
  induction entries with
  | nil => rfl
  | cons entry rest ih =>
    obtain ⟨first, value⟩ := entry
    rw [erase]
    split
    · next h => subst h; simp [names]
    · next h =>
      simp only [names, List.map_cons] at ih ⊢
      rw [List.erase_cons_tail (by simpa using h), ih]

/-- What stands under a name can change without the names. -/
@[simp] theorem names_modify (entries : Named α) (name : String) (f : α → α) :
    names (modify entries name f) = names entries := by
  induction entries with
  | nil => rfl
  | cons entry rest ih =>
    obtain ⟨first, value⟩ := entry
    rw [modify]
    split
    · rfl
    · simpa [names] using ih

/-- Only what stands under the name is changed. -/
theorem get?_modify (entries : Named α) (name : String) (f : α → α) (other : String) :
    get? (modify entries name f) other =
      if name = other then (get? entries other).map f else get? entries other := by
  induction entries with
  | nil => simp [modify]
  | cons entry rest ih =>
    obtain ⟨first, value⟩ := entry
    rw [modify]
    split
    · next h => subst h; simp only [get?_cons]; split <;> simp
    · next h =>
      simp only [get?_cons, ih]
      split
      · next h' => subst h'; rw [if_neg (Ne.symm h)]
      · rfl

/-- Nothing is found exactly under those names that are not there. -/
theorem get?_eq_none_iff {entries : Named α} {name : String} :
    get? entries name = none ↔ name ∉ names entries := by
  induction entries with
  | nil => simp [names]
  | cons entry rest ih =>
    obtain ⟨first, value⟩ := entry
    rw [get?_cons]
    by_cases h : first = name
    · simp [names, h]
    · rw [if_neg h, ih]
      simp [names, Ne.symm h]

/-- Where no name comes twice, nothing is left under the name that is erased. -/
theorem get?_erase {entries : Named α} (h : (names entries).Nodup) (name other : String) :
    get? (erase entries name) other = if name = other then none else get? entries other := by
  induction entries with
  | nil => simp [erase]
  | cons entry rest ih =>
    obtain ⟨first, value⟩ := entry
    obtain ⟨hfirst, hrest⟩ := List.nodup_cons.mp h
    rw [erase]
    split
    · next hname =>
      subst hname
      split
      · next hother => subst hother; exact get?_eq_none_iff.mpr hfirst
      · next hother => rw [get?_cons, if_neg hother]
    · next hname =>
      simp only [get?_cons, ih hrest]
      split
      · next hother => subst hother; rw [if_neg (Ne.symm hname)]
      · rfl

/-- What stands under other names stays. -/
theorem get?_erase_of_ne (entries : Named α) {name other : String} (h : name ≠ other) :
    get? (erase entries name) other = get? entries other := by
  induction entries with
  | nil => rfl
  | cons entry rest ih =>
    obtain ⟨first, value⟩ := entry
    rw [erase]
    split
    · next hname => rw [get?_cons, if_neg (hname ▸ h)]
    · rw [get?_cons, get?_cons, ih]

/-- What is found is there. -/
theorem mem_of_get? {entries : Named α} {name : String} {value : α}
    (h : get? entries name = some value) : (name, value) ∈ entries := by
  induction entries with
  | nil => cases h
  | cons entry rest ih =>
    obtain ⟨first, old⟩ := entry
    rw [get?_cons] at h
    split at h
    · next hname => subst hname; cases h; exact .head _
    · exact .tail _ (ih h)

/-- Where no name comes twice, all that is there is found. -/
theorem get?_of_mem {entries : Named α} {name : String} {value : α} (h : (names entries).Nodup)
    (hmem : (name, value) ∈ entries) : get? entries name = some value := by
  induction entries with
  | nil => cases hmem
  | cons entry rest ih =>
    obtain ⟨first, old⟩ := entry
    obtain ⟨hfirst, hrest⟩ := List.nodup_cons.mp h
    rw [get?_cons]
    rcases List.mem_cons.mp hmem with heq | hlater
    · cases heq
      rw [if_pos rfl]
    · have hne : first ≠ name := by
        rintro rfl
        exact hfirst (List.mem_map.mpr ⟨_, hlater, rfl⟩)
      rw [if_neg hne, ih hrest hlater]

/-- By erasing nothing is added. -/
theorem mem_of_mem_erase {entries : Named α} {name : String} {entry : String × α}
    (h : entry ∈ erase entries name) : entry ∈ entries := by
  induction entries with
  | nil => cases h
  | cons first rest ih =>
    rw [erase] at h
    split at h
    · exact .tail _ h
    · rcases List.mem_cons.mp h with rfl | h
      · exact .head _
      · exact .tail _ (ih h)

/-- Only what is written is added. -/
theorem mem_of_mem_put {entries : Named α} {name : String} {value : α} {entry : String × α}
    (h : entry ∈ put entries name value) : entry = (name, value) ∨ entry ∈ entries := by
  induction entries with
  | nil => exact .inl (List.mem_singleton.mp h)
  | cons first rest ih =>
    rw [put] at h
    split at h
    · next hname =>
      rcases List.mem_cons.mp h with rfl | h
      · exact .inl (by rw [hname])
      · exact .inr (.tail _ h)
    · rcases List.mem_cons.mp h with rfl | h
      · exact .inr (.head _)
      · exact (ih h).imp_right (.tail _)

/-- By merging nothing is added. -/
theorem mem_of_mem_merge {entries : Named α} {entry : String × α} (h : entry ∈ merge entries) :
    entry ∈ entries := by
  induction entries generalizing entry with
  | nil => cases h
  | cons first rest ih =>
    obtain ⟨name, value⟩ := first
    rcases List.mem_cons.mp h with rfl | h
    · cases hlast : (merge rest).get? name with
      | none => exact .head _
      | some last => exact .tail _ (ih (mem_of_get? hlast))
    · exact .tail _ (ih (mem_of_mem_erase h))

/-- After merging no name comes twice. -/
theorem names_merge_nodup (entries : Named α) : (names (merge entries)).Nodup := by
  induction entries with
  | nil => exact List.nodup_nil
  | cons entry rest ih =>
    obtain ⟨first, value⟩ := entry
    rw [merge]
    change (first :: names ((merge rest).erase first)).Nodup
    rw [names_erase, List.nodup_cons]
    exact ⟨ih.not_mem_erase, ih.erase first⟩

/-- To erase a name that is not there changes nothing. -/
theorem erase_eq_self {entries : Named α} {name : String} (h : name ∉ names entries) :
    entries.erase name = entries := by
  induction entries with
  | nil => rfl
  | cons entry rest ih =>
    obtain ⟨first, value⟩ := entry
    obtain ⟨hfirst, hrest⟩ := not_or.mp (mt List.mem_cons.mpr h)
    rw [erase, if_neg (Ne.symm hfirst), ih hrest]

/-- Where no name comes twice, merging changes nothing. -/
theorem merge_eq_self {entries : Named α} (h : (names entries).Nodup) :
    entries.merge = entries := by
  induction entries with
  | nil => rfl
  | cons entry rest ih =>
    obtain ⟨first, value⟩ := entry
    obtain ⟨hfirst, hrest⟩ := List.nodup_cons.mp h
    rw [merge, ih hrest, get?_eq_none_iff.mpr hfirst, erase_eq_self hfirst, Option.getD_none]

end Named

end PocketShell
