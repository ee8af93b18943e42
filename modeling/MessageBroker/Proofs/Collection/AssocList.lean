import Mathlib.Data.List.Nodup
import MessageBroker.Collection.AssocList

/-! Lookup after every change to an association, and properties of the value
that stands under a key. -/

namespace MessageBroker.AssocList

variable {κ : Type u} {ν : Type v} {μ : Type w}

theorem values_mapValues (list : AssocList κ ν) (change : ν → μ) :
    (list.mapValues change).values = list.values.map change := by
  simp [values, mapValues]

theorem keys_mapValues (list : AssocList κ ν) (change : ν → μ) :
    (list.mapValues change).keys = list.keys := by
  simp [keys, mapValues]

theorem ne_of_entries_eq {list : AssocList κ ν} {key : κ} {value : ν}
    {front back : List (κ × ν)}
    (hentries : list.entries = front ++ (key, value) :: back) {entry : κ × ν}
    (hmem : entry ∈ front ++ back) : entry.1 ≠ key := by
  have hperm : list.entries.Perm ((key, value) :: (front ++ back)) := by
    rw [hentries]
    exact List.perm_middle
  have hnodup := (hperm.map Prod.fst).nodup_iff.mp list.nodup_keys
  intro hkey
  exact (List.nodup_cons.mp hnodup).1 (List.mem_map.mpr ⟨entry, hmem, hkey⟩)

variable [DecidableEq κ]

theorem eq_of_mem_entries {list : AssocList κ ν} {key : κ} {first second : ν}
    (hfirst : (key, first) ∈ list.entries)
    (hsecond : (key, second) ∈ list.entries) : first = second := by
  rw [← get?_eq_some_iff] at hfirst hsecond
  exact Option.some.inj (hfirst.symm.trans hsecond)

@[simp] theorem get?_empty (key : κ) :
    (empty : AssocList κ ν).get? key = none := rfl

theorem get?_mapValues (list : AssocList κ ν) (change : ν → μ) (key : κ) :
    (list.mapValues change).get? key = (list.get? key).map change := by
  simp only [get?, mapValues, List.find?_map, Option.map_map]
  rfl

theorem get?_modify (list : AssocList κ ν) (key other : κ) (change : ν → ν) :
    (list.modify key change).get? other =
      if other = key then (list.get? other).map change
      else list.get? other := by
  simp only [get?, modify]
  induction list.entries with
  | nil => simp
  | cons entry rest ih =>
      by_cases hentry : entry.1 = other
      · by_cases hkey : other = key
        · simp [hentry, hkey]
        · simp [hentry, hkey]
      · by_cases hkey : entry.1 = key
        · simp only [List.map_cons, hkey, ↓reduceIte, List.find?_cons]
          rw [hkey] at hentry
          simpa [hentry] using ih
        · simpa [hentry, hkey] using ih

theorem mem_values {list : AssocList κ ν} {value : ν} :
    value ∈ list.values ↔ ∃ key, list.get? key = some value := by
  simp [values, get?_eq_some_iff]

theorem nodup_flatMap_values {list : AssocList κ ν} {items : ν → List μ}
    (hnodup : ∀ key value, list.get? key = some value → (items value).Nodup)
    (hapart : ∀ first value second other, list.get? first = some value →
      list.get? second = some other → ∀ item, item ∈ items value →
      item ∈ items other → first = second) :
    (list.values.flatMap items).Nodup := by
  unfold values
  rw [List.flatMap_map, List.nodup_flatMap]
  constructor
  · intro entry hentry
    exact hnodup entry.1 entry.2 (get?_eq_some_iff.mpr hentry)
  · refine (List.pairwise_map.mp list.nodup_keys).imp_of_mem ?_
    intro first second hfirst hsecond hkeys item hitem hother
    exact hkeys (hapart first.1 first.2 second.1 second.2
      (get?_eq_some_iff.mpr hfirst) (get?_eq_some_iff.mpr hsecond) item hitem
      hother)

theorem get?_filter_of_mem {list : AssocList κ ν} {test : κ → ν → Bool}
    {key : κ} {value : ν} :
    (list.filter test).get? key = some value ↔
      list.get? key = some value ∧ test key value = true := by
  rw [get?_eq_some_iff, get?_eq_some_iff]
  simp [filter]

theorem get?_filter (list : AssocList κ ν) (test : κ → ν → Bool) (key : κ) :
    (list.filter test).get? key = (list.get? key).filter (test key) := by
  apply Option.ext
  intro value
  rw [get?_filter_of_mem, Option.filter_eq_some_iff]

theorem get?_erase (list : AssocList κ ν) (key other : κ) :
    (list.erase key).get? other =
      if other = key then none else list.get? other := by
  apply Option.ext
  intro value
  rw [erase, get?_filter_of_mem]
  by_cases hkey : other = key <;> simp [hkey]

theorem get?_append (list : AssocList κ ν) (key other : κ) (value : ν)
    (fresh : key ∉ list.keys) :
    (list.append key value fresh).get? other =
      if other = key then some value else list.get? other := by
  apply Option.ext
  intro current
  have hmem : (list.append key value fresh).get? other = some current ↔
      list.get? other = some current ∨ (other = key ∧ current = value) := by
    rw [get?_eq_some_iff, get?_eq_some_iff]
    simp [append]
  rw [hmem]
  by_cases hkey : other = key
  · subst hkey
    rw [get?_eq_none_iff.mpr fresh]
    simp [eq_comm]
  · simp [hkey]

theorem get?_insert (list : AssocList κ ν) (key other : κ) (value : ν) :
    (list.insert key value).get? other =
      if other = key then some value else list.get? other := by
  unfold insert
  split
  · rename_i hpresent
    rw [get?_modify]
    by_cases hkey : other = key
    · subst hkey
      obtain ⟨current, hcurrent⟩ := mem_keys_iff.mp hpresent
      rw [get?_eq_some_iff.mpr hcurrent]
      simp
    · simp [hkey]
  · exact get?_append list key other value _

theorem get?_ensure (list : AssocList κ ν) (key other : κ) (value : ν) :
    (list.ensure key value).get? other =
      if other = key then some ((list.get? key).getD value)
      else list.get? other := by
  unfold ensure
  split
  · rename_i hpresent
    obtain ⟨current, hcurrent⟩ := mem_keys_iff.mp hpresent
    have hvalue := get?_eq_some_iff.mpr hcurrent
    by_cases hkey : other = key
    · simp [hkey, hvalue]
    · rw [if_neg hkey]
  · rename_i habsent
    rw [get?_append, get?_eq_none_iff.mpr habsent]
    rfl

theorem modify_const {list : AssocList κ ν} {key : κ} {value : ν}
    {change : ν → ν} (hvalue : list.get? key = some value) :
    (list.modify key fun _ => change value) = list.modify key change := by
  apply ext
  simp only [modify]
  apply List.map_congr_left
  rintro ⟨other, current⟩ hentry
  split
  · rename_i hkey
    subst hkey
    rw [get?_eq_some_iff] at hvalue
    rw [eq_of_mem_entries hvalue hentry]
  · rfl

theorem modify_eq_self {list : AssocList κ ν} {key : κ} {change : ν → ν}
    (hsame : ∀ value, list.get? key = some value → change value = value) :
    list.modify key change = list := by
  apply ext
  simp only [modify]
  refine (List.map_congr_left ?_).trans (List.map_id list.entries)
  rintro ⟨other, value⟩ hentry
  split
  · rename_i hkey
    subst hkey
    rw [hsame value (get?_eq_some_iff.mpr hentry)]
    rfl
  · rfl

theorem modify_of_absent {list : AssocList κ ν} {key : κ}
    (habsent : list.get? key = none) (change : ν → ν) :
    list.modify key change = list :=
  modify_eq_self fun value hvalue => by
    rw [habsent] at hvalue
    cases hvalue

theorem insert_of_present {list : AssocList κ ν} {key : κ} {value : ν}
    (hvalue : list.get? key = some value) (other : ν) :
    list.insert key other = list.modify key fun _ => other :=
  dif_pos (mem_keys_iff.mpr ⟨value, get?_eq_some_iff.mp hvalue⟩)

theorem ensure_of_present {list : AssocList κ ν} {key : κ} {value : ν}
    (hvalue : list.get? key = some value) (other : ν) :
    list.ensure key other = list :=
  dif_pos (mem_keys_iff.mpr ⟨value, get?_eq_some_iff.mp hvalue⟩)

theorem insert_eq_modify {list : AssocList κ ν} {key : κ} {value : ν}
    {change : ν → ν} (hvalue : list.get? key = some value) :
    list.insert key (change value) = list.modify key change := by
  rw [insert_of_present hvalue, modify_const hvalue]

theorem entries_insert_of_absent {list : AssocList κ ν} {key : κ}
    (habsent : list.get? key = none) (value : ν) :
    (list.insert key value).entries = list.entries ++ [(key, value)] := by
  unfold insert
  rw [dif_neg (get?_eq_none_iff.mp habsent)]
  rfl

theorem entries_ensure_of_absent {list : AssocList κ ν} {key : κ}
    (habsent : list.get? key = none) (value : ν) :
    (list.ensure key value).entries = list.entries ++ [(key, value)] := by
  unfold ensure
  rw [dif_neg (get?_eq_none_iff.mp habsent)]
  rfl

theorem modify_modify (list : AssocList κ ν) (key : κ) (first second : ν → ν) :
    (list.modify key first).modify key second =
      list.modify key (second ∘ first) := by
  apply ext
  simp only [modify, List.map_map]
  apply List.map_congr_left
  intro entry _
  by_cases hkey : entry.1 = key <;> simp [hkey]

theorem modify_insert (list : AssocList κ ν) (key : κ) (value : ν)
    (change : ν → ν) :
    (list.insert key value).modify key change =
      list.insert key (change value) := by
  unfold insert
  split
  · rw [modify_modify]
    rfl
  · rename_i habsent
    apply ext
    have hrest : (list.entries.map fun entry =>
        if entry.1 = key then (entry.1, change entry.2) else entry) =
          list.entries := by
      refine (List.map_congr_left ?_).trans (List.map_id list.entries)
      intro entry hentry
      refine if_neg ?_
      rintro rfl
      exact habsent (mem_keys_iff.mpr ⟨entry.2, hentry⟩)
    simp only [modify, append, List.map_append, hrest, List.map_cons,
      List.map_nil, if_true]

theorem mapValues_modify {list : AssocList κ ν} {key : κ} {change : ν → ν}
    {view : ν → μ} (hsame : ∀ value, view (change value) = view value) :
    (list.modify key change).mapValues view = list.mapValues view := by
  apply ext
  simp only [mapValues, modify, List.map_map]
  apply List.map_congr_left
  intro entry _
  by_cases hkey : entry.1 = key <;> simp [hkey, hsame]

theorem erase_eq_self {list : AssocList κ ν} {key : κ}
    (habsent : list.get? key = none) : list.erase key = list := by
  refine ext (List.filter_eq_self.mpr fun entry hentry => ?_)
  refine bne_iff_ne.mpr fun hkey => ?_
  exact get?_eq_none_iff.mp habsent (List.mem_map.mpr ⟨entry, hentry, hkey⟩)

theorem erase_insert (list : AssocList κ ν) (key : κ) (value : ν) :
    (list.insert key value).erase key = list.erase key := by
  unfold insert
  split
  · refine ext ?_
    have hkeys : ∀ entry ∈ list.entries,
        ((if entry.1 = key then (entry.1, value) else entry).1 != key) =
          (entry.1 != key) := by
      intro entry _
      split <;> rfl
    simp only [erase, filter, modify, List.filter_map]
    refine (congrArg (List.map _) (List.filter_congr hkeys)).trans ?_
    refine (List.map_congr_left fun entry hentry => ?_).trans (List.map_id _)
    exact if_neg (bne_iff_ne.mp (List.mem_filter.mp hentry).2)
  · refine ext ?_
    simp [erase, filter, append]

theorem get?_of_entries_eq {list : AssocList κ ν} {key : κ} {value : ν}
    {front back : List (κ × ν)}
    (hentries : list.entries = front ++ (key, value) :: back) :
    list.get? key = some value := by
  rw [get?_eq_some_iff, hentries]
  exact List.mem_append_right _ List.mem_cons_self

theorem entries_erase_of_entries_eq {list : AssocList κ ν} {key : κ} {value : ν}
    {front back : List (κ × ν)}
    (hentries : list.entries = front ++ (key, value) :: back) :
    (list.erase key).entries = front ++ back := by
  unfold erase filter
  dsimp only
  rw [hentries, List.filter_append, List.filter_cons_of_neg (by simp),
    ← List.filter_append]
  refine List.filter_eq_self.mpr fun entry hmem => ?_
  exact bne_iff_ne.mpr (ne_of_entries_eq hentries hmem)

theorem perm_values_erase {list : AssocList κ ν} {key : κ} {value : ν}
    (hvalue : list.get? key = some value) :
    list.values.Perm (value :: (list.erase key).values) := by
  obtain ⟨front, back, hentries⟩ :=
    List.append_of_mem (get?_eq_some_iff.mp hvalue)
  unfold values
  rw [entries_erase_of_entries_eq hentries, hentries]
  exact List.perm_middle.map Prod.snd

theorem perm_values_insert (list : AssocList κ ν) (key : κ) (value : ν) :
    (list.insert key value).values.Perm (value :: (list.erase key).values) := by
  have hvalue : (list.insert key value).get? key = some value :=
    (get?_insert _ _ _ _).trans (if_pos rfl)
  rw [← erase_insert list key value]
  exact perm_values_erase hvalue

def Holds (list : AssocList κ ν) (key : κ) (property : ν → Prop) : Prop :=
  ∃ value, list.get? key = some value ∧ property value

variable {list : AssocList κ ν} {key other : κ} {value : ν}
  {property : ν → Prop}

theorem holds_iff_of_get? (hvalue : list.get? key = some value) :
    list.Holds key property ↔ property value := by
  simp [Holds, hvalue]

theorem not_holds_of_get? (habsent : list.get? key = none) :
    ¬ list.Holds key property := by
  simp [Holds, habsent]

theorem Holds.present (hholds : list.Holds key property) :
    list.contains key = true := by
  obtain ⟨value, hvalue, -⟩ := hholds
  simp [contains, hvalue]

@[simp] theorem not_holds_empty :
    ¬ (empty : AssocList κ ν).Holds key property := by
  simp [Holds]

theorem holds_insert :
    (list.insert key value).Holds other property ↔
      if other = key then property value else list.Holds other property := by
  simp only [Holds, get?_insert]
  split <;> simp

theorem holds_erase :
    (list.erase key).Holds other property ↔
      other ≠ key ∧ list.Holds other property := by
  simp only [Holds, get?_erase]
  split <;> simp [*]

theorem holds_modify {change : ν → ν} :
    (list.modify key change).Holds other property ↔
      list.Holds other fun value =>
        property (if other = key then change value else value) := by
  unfold Holds
  rw [get?_modify]
  cases list.get? other with
  | none => simp
  | some value => split <;> simp

theorem holds_mapValues {change : ν → μ} {property : μ → Prop} :
    (list.mapValues change).Holds key property ↔
      list.Holds key fun value => property (change value) := by
  unfold Holds
  rw [get?_mapValues]
  cases list.get? key with
  | none => simp
  | some value => simp

theorem holds_modify_of_iff {change : ν → ν}
    (hsame : ∀ value, property (change value) ↔ property value) :
    (list.modify key change).Holds other property ↔
      list.Holds other property := by
  rw [holds_modify]
  unfold Holds
  constructor
  · rintro ⟨value, hvalue, hproperty⟩
    refine ⟨value, hvalue, ?_⟩
    split at hproperty
    · exact (hsame value).mp hproperty
    · exact hproperty
  · rintro ⟨value, hvalue, hproperty⟩
    refine ⟨value, hvalue, ?_⟩
    split
    · exact (hsame value).mpr hproperty
    · exact hproperty

theorem holds_modify_const_of_iff {next : ν}
    (hvalue : list.get? key = some value)
    (hsame : property next ↔ property value) :
    (list.modify key fun _ => next).Holds other property ↔
      list.Holds other property := by
  rw [holds_modify]
  by_cases hkey : other = key
  · subst hkey
    simp [holds_iff_of_get? hvalue, hsame]
  · simp [hkey]

theorem contains_of_get? (hvalue : list.get? key = some value) :
    list.contains key = true := by
  simp [contains, hvalue]

end MessageBroker.AssocList
