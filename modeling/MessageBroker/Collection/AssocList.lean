/-! Associations from keys to values that remember the order in which the keys
were added. -/

namespace MessageBroker

structure AssocList (κ : Type u) (ν : Type v) where
  entries : List (κ × ν)
  nodup_keys : (entries.map Prod.fst).Nodup

namespace AssocList

variable {κ : Type u} {ν : Type v} {μ : Type w}

def empty : AssocList κ ν := ⟨[], List.nodup_nil⟩

instance : Inhabited (AssocList κ ν) := ⟨empty⟩

def keys (list : AssocList κ ν) : List κ :=
  list.entries.map Prod.fst

def values (list : AssocList κ ν) : List ν :=
  list.entries.map Prod.snd

def size (list : AssocList κ ν) : Nat :=
  list.entries.length

def isEmpty (list : AssocList κ ν) : Bool :=
  list.entries.isEmpty

def findKey? (list : AssocList κ ν) (test : κ → Bool) : Option (κ × ν) :=
  list.entries.find? fun entry => test entry.1

def filter (list : AssocList κ ν) (test : κ → ν → Bool) : AssocList κ ν where
  entries := list.entries.filter fun entry => test entry.1 entry.2
  nodup_keys := list.nodup_keys.sublist (List.filter_sublist.map Prod.fst)

def mapValues (list : AssocList κ ν) (change : ν → μ) : AssocList κ μ where
  entries := list.entries.map fun entry => (entry.1, change entry.2)
  nodup_keys := by
    have hkeys : (list.entries.map fun entry => (entry.1, change entry.2)).map
        Prod.fst = list.entries.map Prod.fst := by
      simp [Function.comp_def]
    exact hkeys ▸ list.nodup_keys

theorem ext {first second : AssocList κ ν} (h : first.entries = second.entries) :
    first = second := by
  cases first
  cases second
  cases h
  rfl

theorem mem_keys_iff {list : AssocList κ ν} {key : κ} :
    key ∈ list.keys ↔ ∃ value, (key, value) ∈ list.entries := by
  simp [keys]

def append (list : AssocList κ ν) (key : κ) (value : ν)
    (fresh : key ∉ list.keys) : AssocList κ ν where
  entries := list.entries ++ [(key, value)]
  nodup_keys := by
    rw [List.map_append, List.nodup_append]
    refine ⟨list.nodup_keys, by simp, ?_⟩
    intro first hfirst second hsecond heq
    simp at hsecond
    exact fresh (hsecond ▸ heq ▸ hfirst)

@[simp] theorem keys_append (list : AssocList κ ν) (key : κ) (value : ν)
    (fresh : key ∉ list.keys) :
    (list.append key value fresh).keys = list.keys ++ [key] := by
  simp [append, keys]

variable [DecidableEq κ]

def get? (list : AssocList κ ν) (key : κ) : Option ν :=
  (list.entries.find? fun entry => entry.1 = key).map Prod.snd

def contains (list : AssocList κ ν) (key : κ) : Bool :=
  (list.get? key).isSome

def modify (list : AssocList κ ν) (key : κ) (change : ν → ν) :
    AssocList κ ν where
  entries := list.entries.map fun entry =>
    if entry.1 = key then (entry.1, change entry.2) else entry
  nodup_keys := by
    have hkeys : (list.entries.map fun entry =>
        if entry.1 = key then (entry.1, change entry.2) else entry).map Prod.fst =
          list.entries.map Prod.fst := by
      rw [List.map_map]
      apply List.map_congr_left
      intro entry _
      by_cases h : entry.1 = key <;> simp [h]
    exact hkeys ▸ list.nodup_keys

/-- Replace the value of a key in place, or append the key. -/
def insert (list : AssocList κ ν) (key : κ) (value : ν) : AssocList κ ν :=
  if present : key ∈ list.keys then list.modify key fun _ => value
  else list.append key value present

def ensure (list : AssocList κ ν) (key : κ) (value : ν) : AssocList κ ν :=
  if present : key ∈ list.keys then list else list.append key value present

/-- Remove a key; the others keep their order. -/
def erase (list : AssocList κ ν) (key : κ) : AssocList κ ν :=
  list.filter fun other _ => other != key

@[simp] theorem keys_modify (list : AssocList κ ν) (key : κ) (change : ν → ν) :
    (list.modify key change).keys = list.keys := by
  simp only [keys, modify, List.map_map]
  apply List.map_congr_left
  intro entry _
  by_cases h : entry.1 = key <;> simp [h]

@[simp] theorem keys_erase (list : AssocList κ ν) (key : κ) :
    (list.erase key).keys = list.keys.filter (· != key) := by
  simp only [erase, filter, keys, List.filter_map]
  rfl

theorem keys_insert (list : AssocList κ ν) (key : κ) (value : ν) :
    (list.insert key value).keys =
      if key ∈ list.keys then list.keys else list.keys ++ [key] := by
  unfold insert
  split <;> simp [*]

theorem get?_eq_some_iff {list : AssocList κ ν} {key : κ} {value : ν} :
    list.get? key = some value ↔ (key, value) ∈ list.entries := by
  obtain ⟨entries, hnodup⟩ := list
  simp only [get?]
  induction entries with
  | nil => simp
  | cons entry rest ih =>
      obtain ⟨other, current⟩ := entry
      simp only [List.map_cons, List.nodup_cons] at hnodup
      by_cases h : other = key
      · subst h
        have habsent : (other, value) ∉ rest := by
          intro hmem
          exact hnodup.1 (List.mem_map_of_mem (f := Prod.fst) hmem)
        simp [habsent, eq_comm]
      · have hne : (key, value) ≠ (other, current) := by
          intro heq
          exact h (Prod.mk.inj heq).1.symm
        simp only [List.find?_cons, h, decide_false, List.mem_cons, hne,
          false_or]
        exact ih hnodup.2

theorem get?_eq_none_iff {list : AssocList κ ν} {key : κ} :
    list.get? key = none ↔ key ∉ list.keys := by
  constructor
  · intro hnone hmem
    obtain ⟨value, hvalue⟩ := mem_keys_iff.mp hmem
    rw [get?_eq_some_iff.mpr hvalue] at hnone
    cases hnone
  · intro habsent
    cases hvalue : list.get? key with
    | none => rfl
    | some value =>
        exact absurd (mem_keys_iff.mpr ⟨value, get?_eq_some_iff.mp hvalue⟩)
          habsent

theorem contains_iff {list : AssocList κ ν} {key : κ} :
    list.contains key = true ↔ key ∈ list.keys := by
  unfold contains
  cases hvalue : list.get? key with
  | none => simpa using get?_eq_none_iff.mp hvalue
  | some value =>
      simpa using mem_keys_iff.mpr ⟨value, get?_eq_some_iff.mp hvalue⟩

end AssocList

end MessageBroker
