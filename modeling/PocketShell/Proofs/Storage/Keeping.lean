import PocketShell.Storage.Memory
import PocketShell.Storage.StateFile

/-!
# Stores that keep what they are given

`KeepingStorage` is a store whose texts can be told and that may accept whatever is saved: what it
accepts is there afterwards, and nothing else has changed. Memory and state files are of this kind,
and go on accepting when something is taken out (`LastingStorage`). A `SteadyStorage` is left as it
was by a removal that it refuses; a state file is not. An `ObedientStorage` may obey in everything:
what it is told to take out is gone as well. `StorageKeys.holding` are the texts of a store that
holds the three texts of a session and no others.
-/

namespace PocketShell

/-- Taking out a text that is not there changes nothing. -/
theorem Values.erase_eq_self {values : Values} {key : String} (h : key ∉ values) :
    values.erase key = values := by
  refine Std.ExtTreeMap.ext_getElem? fun other => ?_
  rw [Std.ExtTreeMap.getElem?_erase]
  split
  · next heq =>
    rw [← Std.LawfulEqCmp.eq_of_compare heq]
    exact (Std.ExtTreeMap.getElem?_eq_none h).symm
  · rfl

/-- Putting in a text that is there already changes nothing. -/
theorem Values.insert_eq_self {values : Values} {key value : String}
    (h : values[key]? = some value) : values.insert key value = values := by
  refine Std.ExtTreeMap.ext_getElem? fun other => ?_
  rw [Std.ExtTreeMap.getElem?_insert]
  split
  · next heq => rw [← Std.LawfulEqCmp.eq_of_compare heq, h]
  · rfl

/-- A store that keeps what it is given, as long as it accepts it. -/
class KeepingStorage (σ : Type) [Storage σ] where
  /-- The texts under their keys. -/
  values : σ → Values
  /-- No text that is saved, now or later, is refused. -/
  Accepts : σ → Prop
  load_eq (store : σ) (key : String) : Storage.load store key = (values store)[key]?
  save_eq (store : σ) (key value : String) : Accepts store → ∃ after,
    Storage.save store key value = (.ok (), after) ∧ Accepts after ∧
      values after = (values store).insert key value

instance : KeepingStorage MemoryStore where
  values := MemoryStore.values
  Accepts _ := True
  load_eq _ _ := rfl
  save_eq _ _ _ _ := ⟨_, rfl, trivial, rfl⟩

instance : KeepingStorage RefusingStore where
  values := RefusingStore.values
  Accepts store := ∀ attempts key, store.refusals.save attempts key = none
  load_eq _ _ := rfl
  save_eq store key value h := by
    refine ⟨{ store with values := store.values.insert key value, attempts := store.attempts + 1 },
      ?_, h, rfl⟩
    change store.attempt (store.refusals.save store.attempts key) _ = _
    rw [h, RefusingStore.attempt]

/-- On a disk that takes writes an update succeeds, and the disk holds the values written down. -/
theorem StateFile.update_of_none {file : StateFile} (h : file.disk.refusal = none) (values : Values)
    (refused : String → StorageError) :
    file.update values refused =
      (.ok (), ⟨values, { file.disk with content := .text (written values) }⟩) := by
  simp only [update, Disk.write, h]

instance : KeepingStorage StateFile where
  values := StateFile.values
  Accepts file := file.disk.refusal = none
  load_eq _ _ := rfl
  save_eq _ _ _ h := ⟨_, StateFile.update_of_none h _ _, h, rfl⟩

/-- A store that goes on accepting texts when one has been taken out of it, or could not be. -/
class LastingStorage (σ : Type) [Storage σ] [KeepingStorage σ] : Prop where
  accepts_remove (store : σ) (key : String) : KeepingStorage.Accepts store →
    KeepingStorage.Accepts (Storage.remove store key).2

instance : LastingStorage MemoryStore where
  accepts_remove _ _ _ := trivial

instance : LastingStorage RefusingStore where
  accepts_remove store key h := by
    change KeepingStorage.Accepts (store.attempt (store.refusals.remove store.attempts key) _).2
    unfold RefusingStore.attempt
    split <;> exact h

instance : LastingStorage StateFile where
  accepts_remove file key h := by
    change KeepingStorage.Accepts
      (if key ∈ file.values then file.update (file.values.erase key) (.remove key)
        else (.ok (), file)).2
    split
    · rw [StateFile.update_of_none h]
      exact h
    · exact h

/-- A store that takes out a text and no other when it is told to, or changes none if it refuses. -/
class SteadyStorage (σ : Type) [Storage σ] [KeepingStorage σ] : Prop where
  values_remove (store : σ) (key : String) :
    KeepingStorage.values (Storage.remove store key).2 =
      match (Storage.remove store key).1 with
      | .ok () => (KeepingStorage.values store).erase key
      | .error _ => KeepingStorage.values store

instance : SteadyStorage MemoryStore where
  values_remove _ _ := rfl

instance : SteadyStorage RefusingStore where
  values_remove store key := by
    change RefusingStore.values (store.attempt (store.refusals.remove store.attempts key) _).2 =
      match (store.attempt (store.refusals.remove store.attempts key) _).1 with
      | .ok () => store.values.erase key
      | .error _ => store.values
    unfold RefusingStore.attempt
    split <;> rfl

/-- A store that does what it is told, as long as it obeys. -/
class ObedientStorage (σ : Type) [Storage σ] [KeepingStorage σ] where
  /-- No text that is saved or taken out, now or later, is refused. -/
  Obeys : σ → Prop
  accepts (store : σ) : Obeys store → KeepingStorage.Accepts store
  obeys_save (store : σ) (key value : String) : Obeys store → Obeys (Storage.save store key value).2
  remove_eq (store : σ) (key : String) : Obeys store → ∃ after,
    Storage.remove store key = (.ok (), after) ∧ Obeys after ∧
      KeepingStorage.values after = (KeepingStorage.values store).erase key

instance : ObedientStorage MemoryStore where
  Obeys _ := True
  accepts _ _ := trivial
  obeys_save _ _ _ _ := trivial
  remove_eq _ _ _ := ⟨_, rfl, trivial, rfl⟩

instance : ObedientStorage RefusingStore where
  Obeys store := ∀ attempts key,
    store.refusals.save attempts key = none ∧ store.refusals.remove attempts key = none
  accepts _ h attempts key := (h attempts key).1
  obeys_save store key value h := by
    have hkept : (Storage.save store key value).2.refusals = store.refusals := by
      change (store.attempt _ _).2.refusals = _
      unfold RefusingStore.attempt
      split <;> rfl
    intro attempts other
    rw [hkept]
    exact h attempts other
  remove_eq store key h := by
    refine ⟨{ store with values := store.values.erase key, attempts := store.attempts + 1 },
      ?_, h, rfl⟩
    change store.attempt (store.refusals.remove store.attempts key) _ = _
    rw [(h _ _).2, RefusingStore.attempt]

instance : ObedientStorage StateFile where
  Obeys file := file.disk.refusal = none
  accepts _ h := h
  obeys_save file key value h := by
    change (file.update (file.values.insert key value) _).2.disk.refusal = none
    rw [StateFile.update_of_none h]
    exact h
  remove_eq file key h := by
    by_cases hkey : key ∈ file.values
    · refine ⟨_, (if_pos hkey).trans (StateFile.update_of_none h _ _), h, rfl⟩
    · exact ⟨file, if_neg hkey, h, (Values.erase_eq_self hkey).symm⟩

namespace StorageKeys

/-- Three texts under the keys, and no others. -/
def holding (keys : StorageKeys) (tree directory user : String) : Values :=
  .ofList [(keys.tree, tree), (keys.directory, directory), (keys.user, user)]

/-- The three keys of a stem are different: each has another ending. -/
theorem nodup_all_ofStem (stem : String) : (ofStem stem).all.Nodup := by
  simp [all, ofStem]

variable {keys : StorageKeys} (tree directory user : String)

/-- The three texts are put under their keys one after another. -/
theorem holding_eq :
    keys.holding tree directory user =
      (((∅ : Values).insert keys.tree tree).insert keys.directory directory).insert keys.user
        user := by
  rw [holding, Std.ExtTreeMap.ofList_eq_insertMany_empty, Std.ExtTreeMap.insertMany_cons,
    Std.ExtTreeMap.insertMany_cons, Std.ExtTreeMap.insertMany_cons, Std.ExtTreeMap.insertMany_nil]

/-- What is found under a key, if the later of equal keys counts. -/
theorem getElem?_holding (key : String) : (keys.holding tree directory user)[key]? =
    if keys.user = key then some user else if keys.directory = key then some directory
    else if keys.tree = key then some tree else none := by
  simp [holding_eq, Std.ExtTreeMap.getElem?_insert]

/-- If the list of keys has no key twice, then its three keys differ from one another. -/
theorem ne_of_nodup_all (h : keys.all.Nodup) :
    keys.tree ≠ keys.directory ∧ keys.tree ≠ keys.user ∧ keys.directory ≠ keys.user := by
  simpa [all, and_assoc] using h

/-- Under its own key the tree is found. -/
theorem getElem?_tree_holding (h : keys.all.Nodup) :
    (keys.holding tree directory user)[keys.tree]? = some tree := by
  obtain ⟨hdirectory, huser, -⟩ := ne_of_nodup_all h
  rw [getElem?_holding, if_neg huser.symm, if_neg hdirectory.symm, if_pos rfl]

/-- Under its own key the current path is found. -/
theorem getElem?_directory_holding (h : keys.all.Nodup) :
    (keys.holding tree directory user)[keys.directory]? = some directory := by
  obtain ⟨-, -, huser⟩ := ne_of_nodup_all h
  rw [getElem?_holding, if_neg huser.symm, if_pos rfl]

/-- Under its own key the user is found; it is put last, so equal keys make no difference. -/
theorem getElem?_user_holding : (keys.holding tree directory user)[keys.user]? = some user := by
  rw [getElem?_holding, if_pos rfl]

/-- Another tree replaces the first one and leaves the other two texts. -/
theorem insert_tree_holding (h : keys.all.Nodup) (written : String) :
    (keys.holding tree directory user).insert keys.tree written =
      keys.holding written directory user := by
  obtain ⟨hdirectory, huser, -⟩ := ne_of_nodup_all h
  refine Std.ExtTreeMap.ext_getElem? fun key => ?_
  simp only [Std.ExtTreeMap.getElem?_insert, getElem?_holding, Std.compare_eq_iff_eq]
  grind

/-- Another path replaces the first one and leaves the other two texts. -/
theorem insert_directory_holding (h : keys.all.Nodup) (written : String) :
    (keys.holding tree directory user).insert keys.directory written =
      keys.holding tree written user := by
  obtain ⟨-, -, huser⟩ := ne_of_nodup_all h
  refine Std.ExtTreeMap.ext_getElem? fun key => ?_
  simp only [Std.ExtTreeMap.getElem?_insert, getElem?_holding, Std.compare_eq_iff_eq]
  grind

/-- Another user replaces the first one and leaves the other two texts. -/
theorem insert_user_holding (written : String) :
    (keys.holding tree directory user).insert keys.user written =
      keys.holding tree directory written := by
  refine Std.ExtTreeMap.ext_getElem? fun key => ?_
  simp only [Std.ExtTreeMap.getElem?_insert, getElem?_holding, Std.compare_eq_iff_eq]
  grind

end StorageKeys

end PocketShell
