import MessageBroker.Proofs.Collection.MemberIndex
import MessageBroker.Proofs.Collection.Naming

/-! Collections without some of their items. What is done to an item that is
left out does not show in what is kept. -/

namespace MessageBroker

namespace AssocList

variable {κ : Type u} {ν : Type v} {μ : Type w}

theorem filter_eq_self {list : AssocList κ ν} {test : κ → ν → Bool}
    (hall : ∀ entry ∈ list.entries, test entry.1 entry.2 = true) :
    list.filter test = list :=
  ext (List.filter_eq_self.mpr hall)

variable [DecidableEq κ]

theorem mapValues_eq_self {list : AssocList κ ν} {change : ν → ν}
    (hsame : ∀ key value, list.get? key = some value → change value = value) :
    list.mapValues change = list := by
  apply ext
  refine (List.map_congr_left ?_).trans (List.map_id list.entries)
  intro entry hentry
  exact Prod.ext rfl (hsame entry.1 entry.2 (get?_eq_some_iff.mpr hentry))

theorem filter_modify (list : AssocList κ ν) (test : κ → Bool) (key : κ)
    (change : ν → ν) :
    (list.modify key change).filter (fun other _ => test other) =
      (list.filter fun other _ => test other).modify key change := by
  apply ext
  simp only [filter, modify, List.filter_map]
  congr 1
  apply List.filter_congr
  intro entry _
  by_cases hkey : entry.1 = key <;> simp [hkey]

theorem erase_modify (list : AssocList κ ν) (key other : κ)
    (change : ν → ν) :
    (list.modify key change).erase other =
      (list.erase other).modify key change :=
  list.filter_modify (· != other) key change

theorem erase_erase (list : AssocList κ ν) (key : κ) :
    (list.erase key).erase key = list.erase key :=
  erase_eq_self ((list.get?_erase key key).trans (if_pos rfl))

theorem erase_modify_self (list : AssocList κ ν) (key : κ)
    (change : ν → ν) : (list.modify key change).erase key = list.erase key := by
  rw [erase_modify]
  apply modify_eq_self
  intro value hvalue
  rw [get?_erase, if_pos rfl] at hvalue
  cases hvalue

theorem mapValues_erase_foldl_modify {σ : Type x} {target : σ → κ}
    {change : ν → ν} {view : ν → μ}
    (hsame : ∀ value, view (change value) = view value) (steps : List σ)
    (list : AssocList κ ν) (key : κ) :
    ((steps.foldl (fun list step => list.modify (target step) change)
        list).erase key).mapValues view = (list.erase key).mapValues view := by
  induction steps generalizing list with
  | nil => rfl
  | cons step rest ih =>
      rw [List.foldl_cons, ih, erase_modify, mapValues_modify hsame]

theorem filter_erase {list : AssocList κ ν} {test : κ → ν → Bool} {key : κ}
    (hgone : ∀ value, list.get? key = some value → test key value = false) :
    (list.erase key).filter test = list.filter test := by
  apply ext
  simp only [filter, erase, List.filter_filter]
  apply List.filter_congr
  intro entry hentry
  by_cases hkey : entry.1 = key
  · subst hkey
    rw [hgone entry.2 (get?_eq_some_iff.mpr hentry), Bool.false_and]
  · simp [hkey]

end AssocList

namespace MemberSet

variable {α : Type u}

def keep (stays : α → Bool) (set : MemberSet α) : MemberSet α where
  items := set.items.filter stays
  nodup_items := set.nodup_items.sublist List.filter_sublist

theorem keep_eq_self {stays : α → Bool} {set : MemberSet α}
    (hall : ∀ member ∈ set.items, stays member = true) :
    set.keep stays = set :=
  ext (List.filter_eq_self.mpr hall)

theorem keep_of_isEmpty {stays : α → Bool} {set : MemberSet α}
    (hempty : set.isEmpty = true) : (set.keep stays).isEmpty = true := by
  have hnil : set.items = [] := List.isEmpty_iff.mp hempty
  simp [keep, isEmpty, hnil]

variable [DecidableEq α]

theorem keep_erase (stays : α → Bool) {member : α}
    (hgone : stays member = false) (set : MemberSet α) :
    (set.erase member).keep stays = set.keep stays := by
  apply ext
  simp only [keep, erase, List.filter_filter]
  apply List.filter_congr
  intro other _
  by_cases hsame : other = member
  · rw [hsame, hgone, Bool.false_and]
  · simp [hsame]

theorem erase_erase (set : MemberSet α) (member : α) :
    (set.erase member).erase member = set.erase member :=
  keep_erase (· != member) (bne_self_eq_false member) set

end MemberSet

namespace MemberIndex

variable {κ : Type u} {α : Type v}

def keep (stays : α → Bool) (index : MemberIndex κ α) : MemberIndex κ α where
  groups := (index.groups.mapValues fun set => set.keep stays).filter
    fun _ set => !set.isEmpty
  groups_nonempty := by
    intro entry hentry hnil
    have hkept := (List.mem_filter.mp hentry).2
    simp [MemberSet.isEmpty, hnil] at hkept

variable [DecidableEq κ] [DecidableEq α]

theorem keep_eq_self {stays : α → Bool} {index : MemberIndex κ α}
    (hall : ∀ key member, index.contains key member = true →
      stays member = true) : index.keep stays = index := by
  have hgroups : (index.groups.mapValues fun set => set.keep stays) =
      index.groups := by
    apply AssocList.mapValues_eq_self
    intro key set hset
    apply MemberSet.keep_eq_self
    intro member hmember
    exact hall key member (contains_iff_holds.mpr ⟨set, hset, hmember⟩)
  apply ext
  simp only [keep, hgroups]
  apply AssocList.filter_eq_self
  intro entry hentry
  simp only [MemberSet.isEmpty, Bool.not_eq_true', List.isEmpty_eq_false_iff]
  exact index.groups_nonempty entry hentry

theorem keep_unlink (stays : α → Bool) {member : α}
    (hgone : stays member = false) (index : MemberIndex κ α) (key : κ) :
    (index.unlink key member).keep stays = index.keep stays := by
  have hview : ((index.groups.modify key fun set =>
      set.erase member).mapValues fun set => set.keep stays) =
        index.groups.mapValues fun set => set.keep stays :=
    AssocList.mapValues_modify (MemberSet.keep_erase stays hgone)
  apply ext
  simp only [keep, ← hview]
  apply AssocList.ext
  simp only [unlink, AssocList.filter, AssocList.mapValues, List.filter_map,
    List.filter_filter]
  -- A key that is dropped first would have been dropped in the end.
  congr 1
  apply List.filter_congr
  intro entry _
  cases hempty : entry.2.isEmpty with
  | true => simp [MemberSet.keep_of_isEmpty hempty]
  | false => simp

theorem keep_ne_unlink (index : MemberIndex κ α) (key : κ) (member : α) :
    (index.unlink key member).keep (· != member) =
      index.keep (· != member) :=
  keep_unlink (· != member) (bne_self_eq_false member) index key

end MemberIndex

namespace Registry

variable {ι : Type u} {ε : Type v}

def keep (stays : ι → Bool) (registry : Registry ι ε) : Registry ι ε where
  entities := registry.entities.filter fun id _ => stays id
  names := registry.names.filter fun _ id => stays id

variable [DecidableEq ι]

theorem find?_keep (registry : Registry ι ε) (stays : ι → Bool) (id : ι) :
    (registry.keep stays).find? id =
      if stays id = true then registry.find? id else none := by
  apply Option.ext
  intro entity
  refine AssocList.get?_filter_of_mem.trans ?_
  by_cases hstays : stays id = true <;> simp [hstays, find?]

theorem exists_find?_keep {registry : Registry ι ε} {stays : ι → Bool} {id : ι}
    {change : ε → ε} :
    (∃ found, ((registry.keep stays).mapEntities change).find? id =
        some found) ↔
      stays id = true ∧ ∃ found, registry.find? id = some found := by
  rw [find?_mapEntities, find?_keep]
  by_cases hstays : stays id = true <;> simp [hstays]

theorem keep_update (registry : Registry ι ε) (stays : ι → Bool) (id : ι)
    (change : ε → ε) :
    (registry.update id change).keep stays =
      (registry.keep stays).update id change := by
  unfold keep update
  rw [AssocList.filter_modify]

theorem mapEntities_eq_self {registry : Registry ι ε} {change : ε → ε}
    (hsame : ∀ id entity, registry.find? id = some entity →
      change entity = entity) : registry.mapEntities change = registry := by
  unfold mapEntities
  rw [AssocList.mapValues_eq_self hsame]

theorem mapEntities_keep_update {registry : Registry ι ε} {stays : ι → Bool}
    {id : ι} {change view : ε → ε}
    (hsame : ∀ entity, view (change entity) = view entity) :
    ((registry.update id change).keep stays).mapEntities view =
      (registry.keep stays).mapEntities view := by
  rw [keep_update, mapEntities_update hsame]

theorem mapEntities_keep_foldl_update {σ : Type w} {target : σ → ι}
    {change : σ → ε → ε} {view : ε → ε}
    (hsame : ∀ step entity, view (change step entity) = view entity)
    (steps : List σ) (registry : Registry ι ε) (stays : ι → Bool) :
    ((steps.foldl (fun registry step =>
        registry.update (target step) (change step)) registry).keep
          stays).mapEntities view = (registry.keep stays).mapEntities view := by
  induction steps generalizing registry with
  | nil => rfl
  | cons step rest ih =>
      rw [List.foldl_cons, ih, mapEntities_keep_update (hsame step)]

variable [Named ι ε]

theorem keep_erase {registry : Registry ι ε} {proper : ε → Prop}
    (h : registry.Lists proper) (stays : ι → Bool) {id : ι} {entity : ε}
    (found : registry.find? id = some entity) (hid : Named.id entity = id)
    (hgone : stays id = false) :
    (registry.erase entity).keep stays = registry.keep stays := by
  subst hid
  have hentities : (registry.entities.erase (Named.id entity)).filter
      (fun id _ => stays id) = registry.entities.filter fun id _ => stays id :=
    AssocList.filter_erase fun _ _ => hgone
  have hnames : (registry.names.erase (Named.name entity)).filter
      (fun _ id => stays id) = registry.names.filter fun _ id => stays id := by
    apply AssocList.filter_erase
    intro id hname
    have hlisted : registry.names.get? (Named.name entity) =
        some (Named.id entity) := h.idOf? found
    rw [hname] at hlisted
    cases hlisted
    exact hgone
  unfold keep erase
  rw [hentities, hnames]

theorem keep_eq_self {registry : Registry ι ε} {proper : ε → Prop}
    (h : registry.Lists proper) {stays : ι → Bool}
    (hall : ∀ id entity, registry.find? id = some entity → stays id = true) :
    registry.keep stays = registry := by
  have hentities : (registry.entities.filter fun id _ => stays id) =
      registry.entities := by
    apply AssocList.filter_eq_self
    intro entry hentry
    exact hall entry.1 entry.2 (AssocList.get?_eq_some_iff.mpr hentry)
  have hnames : (registry.names.filter fun _ id => stays id) =
      registry.names := by
    apply AssocList.filter_eq_self
    intro entry hentry
    obtain ⟨entity, found, -⟩ := (h.idOf?_iff entry.1 entry.2).mp
      (AssocList.get?_eq_some_iff.mpr hentry)
    exact hall entry.2 entity found
  unfold keep
  rw [hentities, hnames]

theorem mapEntities_keep_eq_self {registry : Registry ι ε} {proper : ε → Prop}
    (h : registry.Lists proper) {stays : ι → Bool} {change : ε → ε}
    (hall : ∀ id entity, registry.find? id = some entity →
      stays id = true ∧ change entity = entity) :
    (registry.keep stays).mapEntities change = registry := by
  rw [keep_eq_self h fun id entity found => (hall id entity found).1]
  exact mapEntities_eq_self fun id entity found => (hall id entity found).2

end Registry

end MessageBroker
