import Mathlib.Data.List.Nodup

/-!
# Looking up in lists

Tables, owners and forms are lists in which things are looked up, by a key or by a place.
Where keys are distinct the two agree, a list to which a key is added at the end keeps the
places of the others, and going through a list in which every look-up succeeds is a map.
-/

namespace AttributeFlow

variable {Key Item Result : Type}

theorem nodup_eraseDups [BEq Item] [LawfulBEq Item] (items : List Item) :
    items.eraseDups.Nodup := by
  induction lengthEq : items.length using Nat.strongRecOn generalizing items with
  | ind length ih =>
      cases items with
      | nil => simp
      | cons item items =>
          rw [List.eraseDups_cons, List.nodup_cons]
          have shorter : (items.filter fun other => !other == item).length < length := by
            have := List.length_filter_le (fun other => !other == item) items
            simp only [List.length_cons] at lengthEq
            omega
          exact ⟨by simp, ih _ shorter _ rfl⟩

/-- A further item is a new one or was seen before. -/
theorem eraseDups_concat [BEq Item] [LawfulBEq Item] (items : List Item) (item : Item) :
    (items ++ [item]).eraseDups =
      items.eraseDups ++ if item ∈ items.eraseDups then [] else [item] := by
  rw [List.eraseDups_append, List.removeAll, List.filter_cons, List.filter_nil]
  by_cases seen : item ∈ items
  · simp [seen]
  · simp [seen, List.eraseDups_cons]

/-- Where keys are distinct, a place belongs to the key that stands there. -/
theorem idxOf?_eq_some_iff_getElem? [BEq Key] [LawfulBEq Key] {keys : List Key}
    (distinct : keys.Nodup) {key : Key} {place : Nat} :
    keys.idxOf? key = some place ↔ keys[place]? = some key := by
  rw [List.idxOf?_eq_some_iff, List.getElem?_eq_some_iff]
  constructor
  · rintro ⟨placeLt, atPlace, _⟩
    exact ⟨placeLt, atPlace⟩
  · rintro ⟨placeLt, rfl⟩
    refine ⟨placeLt, rfl, ?_⟩
    intro other otherLt same
    have placeEq := distinct.getElem_inj_iff.mp same
    omega

theorem idxOf?_concat [DecidableEq Key] [BEq Key] [LawfulBEq Key] {keys : List Key} {key : Key}
    (isNew : keys.idxOf? key = none) (other : Key) :
    (keys ++ [key]).idxOf? other = if other = key then some keys.length else keys.idxOf? other := by
  unfold List.idxOf? at isNew ⊢
  rw [List.findIdx?_append, List.findIdx?_singleton]
  by_cases same : other = key
  · subst same
    simp [isNew]
  · have notFound : (key == other) = false := by simpa using Ne.symm same
    simp [notFound, same]

/-- Changing an item keeps the keys if it keeps the key of the item. -/
theorem map_set_of_key {key : Item → Key} {items : List Item} {place : Nat} {old new : Item}
    (found : items[place]? = some old) (keyEq : key new = key old) :
    (items.set place new).map key = items.map key := by
  obtain ⟨placeLt, rfl⟩ := List.getElem?_eq_some_iff.mp found
  rw [List.map_set, keyEq, ← List.getElem_map key, List.set_getElem_self]
  simpa using placeLt

theorem modify_eq_set {items : List Item} {place : Nat} {item : Item}
    (found : items[place]? = some item) (change : Item → Item) :
    items.modify place change = items.set place (change item) := by
  rw [List.modify_eq_set_getElem?, found]
  rfl

/-- Looking up some items succeeds if it does for each of them. -/
theorem mapM_eq_some_map {lookUp : Item → Option Result} {result : Item → Result}
    {items : List Item} (finds : ∀ item ∈ items, lookUp item = some (result item)) :
    items.mapM lookUp = some (items.map result) := by
  induction items with
  | nil => rfl
  | cons item items ih =>
      rw [List.forall_mem_cons] at finds
      rw [List.mapM_cons, finds.1, ih finds.2]
      rfl

theorem mapM_eq_some_filterMap {lookUp : Item → Option Result} {items : List Item}
    (finds : ∀ item ∈ items, ∃ result, lookUp item = some result) :
    items.mapM lookUp = some (items.filterMap lookUp) := by
  induction items with
  | nil => rfl
  | cons item items ih =>
      rw [List.forall_mem_cons] at finds
      obtain ⟨result, found⟩ := finds.1
      rw [List.mapM_cons, ih finds.2, List.filterMap_cons, found]
      rfl

/-- Asking about some items succeeds if it does for each of them. -/
theorem allM_eq_some_all {ask : Item → Option Bool} {answer : Item → Bool} {items : List Item}
    (finds : ∀ item ∈ items, ask item = some (answer item)) :
    items.allM ask = some (items.all answer) := by
  induction items with
  | nil => rfl
  | cons item items ih =>
      rw [List.forall_mem_cons] at finds
      rw [List.allM, finds.1, List.all_cons]
      cases answer item with
      | true => exact ih finds.2
      | false => rfl

end AttributeFlow
