import MessageBroker.Collection.Registry
import MessageBroker.Proofs.Collection.AssocList

namespace MessageBroker.Registry

variable {ι : Type u} {ε : Type v}

theorem toList_mapEntities (registry : Registry ι ε) (change : ε → ε) :
    (registry.mapEntities change).toList = registry.toList.map change :=
  AssocList.values_mapValues _ _

variable [DecidableEq ι]

theorem mem_keys {registry : Registry ι ε} {id : ι} :
    id ∈ registry.entities.keys ↔ ∃ entity, registry.find? id = some entity := by
  simp only [AssocList.mem_keys_iff, find?, AssocList.get?_eq_some_iff]

theorem find?_update (registry : Registry ι ε) (id other : ι)
    (change : ε → ε) :
    (registry.update id change).find? other =
      if other = id then (registry.find? other).map change
      else registry.find? other :=
  AssocList.get?_modify _ _ _ _

theorem find?_update_self {registry : Registry ι ε} {id : ι} {entity : ε}
    (found : registry.find? id = some entity) (change : ε → ε) :
    (registry.update id change).find? id = some (change entity) := by
  rw [find?_update, if_pos rfl, found]
  rfl

theorem find?_update_ne (registry : Registry ι ε) {id other : ι}
    (hother : other ≠ id) (change : ε → ε) :
    (registry.update id change).find? other = registry.find? other := by
  rw [find?_update, if_neg hother]

theorem exists_find?_update {registry : Registry ι ε} {target id : ι}
    {change : ε → ε} :
    (∃ found, (registry.update target change).find? id = some found) ↔
      ∃ found, registry.find? id = some found := by
  rw [find?_update]
  split
  · simp
  · exact Iff.rfl

theorem map_find?_update {registry : Registry ι ε} {change : ε → ε}
    {view : ε → α} (hview : ∀ entity, view (change entity) = view entity)
    (id other : ι) :
    ((registry.update id change).find? other).map view =
      (registry.find? other).map view := by
  rw [find?_update]
  split
  · rw [Option.map_map]
    exact congrArg (Option.map · (registry.find? other)) (funext hview)
  · rfl

theorem find?_mapEntities (registry : Registry ι ε) (id : ι)
    (change : ε → ε) :
    (registry.mapEntities change).find? id =
      (registry.find? id).map change :=
  AssocList.get?_mapValues _ _ _

theorem update_const {registry : Registry ι ε} {id : ι} {entity : ε}
    {change : ε → ε} (hfound : registry.find? id = some entity) :
    (registry.update id fun _ => change entity) = registry.update id change := by
  unfold update
  rw [AssocList.modify_const hfound]

theorem update_eq_self {registry : Registry ι ε} {id : ι} {change : ε → ε}
    (hsame : ∀ entity, registry.find? id = some entity →
      change entity = entity) : registry.update id change = registry := by
  unfold update
  rw [AssocList.modify_eq_self hsame]

theorem update_update (registry : Registry ι ε) (id : ι)
    (first second : ε → ε) :
    (registry.update id first).update id second =
      registry.update id (second ∘ first) := by
  unfold update
  rw [AssocList.modify_modify]

theorem mem_toList {registry : Registry ι ε} {entity : ε} :
    entity ∈ registry.toList ↔ ∃ id, registry.find? id = some entity :=
  AssocList.mem_values

theorem mapEntities_update {registry : Registry ι ε} {id : ι}
    {change view : ε → ε} (hsame : ∀ entity, view (change entity) = view entity) :
    (registry.update id change).mapEntities view =
      registry.mapEntities view := by
  unfold update mapEntities
  rw [AssocList.mapValues_modify hsame]

theorem entities_foldl_update {σ : Type w} {target : σ → ι}
    {change : σ → ε → ε} (registry : Registry ι ε) (steps : List σ) :
    (steps.foldl (fun registry step =>
        registry.update (target step) (change step)) registry).entities =
      steps.foldl (fun list step => list.modify (target step) (change step))
        registry.entities := by
  induction steps generalizing registry with
  | nil => rfl
  | cons step rest ih =>
      rw [List.foldl_cons, List.foldl_cons, ih]
      rfl

def All (registry : Registry ι ε) (property : ι → ε → Prop) : Prop :=
  ∀ id entity, registry.find? id = some entity → property id entity

section All

variable {registry : Registry ι ε} {property : ι → ε → Prop}

theorem all_empty : (empty : Registry ι ε).All property := by
  intro id entity hfound
  cases hfound

theorem All.update (h : registry.All property) {id : ι} {change : ε → ε}
    (hchange : ∀ entity, registry.find? id = some entity →
      property id entity → property id (change entity)) :
    (registry.update id change).All property := by
  intro other found hfound
  rw [find?_update] at hfound
  split at hfound
  · rename_i hother
    subst hother
    obtain ⟨entity, hentity, rfl⟩ := Option.map_eq_some_iff.mp hfound
    exact hchange entity hentity (h other entity hentity)
  · exact h other found hfound

theorem All.foldl_update {σ : Type w} (h : registry.All property)
    {target : σ → ι} {change : σ → ε → ε} (steps : List σ)
    (hchange : ∀ step entity, property (target step) entity →
      property (target step) (change step entity)) :
    (steps.foldl (fun registry step =>
      registry.update (target step) (change step)) registry).All property := by
  apply List.foldlRecOn
    (motive := fun registry : Registry ι ε => registry.All property)
  · exact h
  · intro registry hregistry step _
    exact hregistry.update fun entity _ => hchange step entity

theorem All.mapEntities (h : registry.All property) {change : ε → ε}
    (hchange : ∀ id entity, registry.find? id = some entity →
      property id entity → property id (change entity)) :
    (registry.mapEntities change).All property := by
  intro id found hfound
  rw [find?_mapEntities] at hfound
  obtain ⟨entity, hentity, rfl⟩ := Option.map_eq_some_iff.mp hfound
  exact hchange id entity hentity (h id entity hentity)

end All

variable [Named ι ε]

theorem find?_erase (registry : Registry ι ε) (entity : ε) (other : ι) :
    (registry.erase entity).find? other =
      if other = Named.id entity then none else registry.find? other :=
  AssocList.get?_erase _ _ _

theorem find?_add (registry : Registry ι ε) (entity : ε) (other : ι) :
    (registry.add entity).find? other =
      if other = Named.id entity then some entity else registry.find? other :=
  AssocList.get?_insert _ _ _ _

theorem exists_find?_add {registry : Registry ι ε} {entity : ε} {id : ι} :
    (∃ found, (registry.add entity).find? id = some found) ↔
      id = Named.id entity ∨ ∃ found, registry.find? id = some found := by
  rw [find?_add]
  split
  · rename_i hid
    exact ⟨fun _ => .inl hid, fun _ => ⟨entity, rfl⟩⟩
  · rename_i hother
    exact (or_iff_right hother).symm

theorem find?_rename (registry : Registry ι ε) (entity : ε) (name : String)
    (other : ι) :
    (registry.rename entity name).find? other =
      if other = Named.id entity then
        (registry.find? other).map fun _ => Named.rename entity name
      else registry.find? other :=
  AssocList.get?_modify _ _ _ _

theorem toList_add {registry : Registry ι ε} {entity : ε}
    (hnew : registry.find? (Named.id entity) = none) :
    (registry.add entity).toList = registry.toList ++ [entity] := by
  unfold toList add AssocList.values
  rw [AssocList.entries_insert_of_absent hnew, List.map_append]
  rfl

theorem update_add (registry : Registry ι ε) (entity : ε) (change : ε → ε)
    (hid : Named.id (change entity) = Named.id entity)
    (hname : Named.name (change entity) = Named.name entity) :
    (registry.add entity).update (Named.id entity) change =
      registry.add (change entity) := by
  unfold add update
  rw [AssocList.modify_insert, hid, hname]

section All

variable {registry : Registry ι ε} {property : ι → ε → Prop}

theorem All.add (h : registry.All property) {entity : ε}
    (hentity : property (Named.id entity) entity) :
    (registry.add entity).All property := by
  intro id found hfound
  rw [find?_add] at hfound
  split at hfound
  · rename_i hid
    subst hid
    cases hfound
    exact hentity
  · exact h id found hfound

theorem All.erase (h : registry.All property) (entity : ε) :
    (registry.erase entity).All property := by
  intro id found hfound
  rw [find?_erase] at hfound
  split at hfound
  · cases hfound
  · exact h id found hfound

theorem All.rename (h : registry.All property) {entity : ε} {name : String}
    (hrename : property (Named.id entity) (Named.rename entity name)) :
    (registry.rename entity name).All property := by
  intro id found hfound
  rw [find?_rename] at hfound
  split at hfound
  · rename_i hid
    subst hid
    obtain ⟨-, -, rfl⟩ := Option.map_eq_some_iff.mp hfound
    exact hrename
  · exact h id found hfound

end All

/-- Every entity stands under its own identifier, and the identifier is one of
those given out so far. -/
def Keyed (registry : Registry ι ε) (issued : ι → Prop) : Prop :=
  registry.All fun id entity => Named.id entity = id ∧ issued id

variable {registry : Registry ι ε} {issued issuedLater : ι → Prop}

theorem Keyed.id_eq (h : registry.Keyed issued) {id : ι} {entity : ε}
    (hfound : registry.find? id = some entity) : Named.id entity = id :=
  (h id entity hfound).1

theorem Keyed.issued_id (h : registry.Keyed issued) {id : ι} {entity : ε}
    (hfound : registry.find? id = some entity) : issued id :=
  (h id entity hfound).2

theorem Keyed.put_eq_update (h : registry.Keyed issued) (change : ε → ε)
    {id : ι} {entity : ε} (hfound : registry.find? id = some entity)
    (hid : Named.id (change entity) = Named.id entity) :
    registry.put (change entity) = registry.update id change := by
  unfold put
  rw [hid, h.id_eq hfound, update_const hfound]

theorem Keyed.put_self (h : registry.Keyed issued) {id : ι} {entity : ε}
    (hfound : registry.find? id = some entity) :
    registry.put entity = registry := by
  rw [h.put_eq_update (fun entity => entity) hfound rfl]
  exact update_eq_self fun _ _ => rfl

theorem Keyed.find?_put (h : registry.Keyed issued) {id : ι} {entity next : ε}
    (hfound : registry.find? id = some entity)
    (hid : Named.id next = Named.id entity) (other : ι) :
    (registry.put next).find? other =
      if other = id then some next else registry.find? other := by
  rw [h.put_eq_update (fun _ => next) hfound hid, find?_update]
  split
  · rename_i hother
    rw [hother, hfound]
    rfl
  · rfl

theorem Keyed.find?_eq_none (h : registry.Keyed issued) {id : ι}
    (hunissued : ¬ issued id) : registry.find? id = none := by
  cases hfound : registry.find? id with
  | none => rfl
  | some entity => exact absurd (h.issued_id hfound) hunissued

theorem keyed_empty : (empty : Registry ι ε).Keyed issued :=
  all_empty

theorem Keyed.mono (h : registry.Keyed issued)
    (hissued : ∀ id, issued id → issuedLater id) :
    registry.Keyed issuedLater := by
  intro id entity hfound
  exact ⟨h.id_eq hfound, hissued id (h.issued_id hfound)⟩

theorem Keyed.add (h : registry.Keyed issued) {entity : ε}
    (hnew : issued (Named.id entity)) : (registry.add entity).Keyed issued :=
  All.add h ⟨rfl, hnew⟩

theorem Keyed.erase (h : registry.Keyed issued) (entity : ε) :
    (registry.erase entity).Keyed issued :=
  All.erase h entity

theorem Keyed.update (h : registry.Keyed issued) (id : ι) {change : ε → ε}
    (hid : ∀ entity, registry.find? id = some entity →
      Named.id (change entity) = Named.id entity) :
    (registry.update id change).Keyed issued :=
  All.update h fun entity hfound => And.imp_left (hid entity hfound).trans

theorem Keyed.mapEntities (h : registry.Keyed issued) {change : ε → ε}
    (hid : ∀ entity, Named.id (change entity) = Named.id entity) :
    (registry.mapEntities change).Keyed issued :=
  All.mapEntities h fun _ entity _ => And.imp_left (hid entity).trans

theorem Keyed.rename (h : registry.Keyed issued) {id : ι} {entity : ε}
    {name : String} (hfound : registry.find? id = some entity)
    (hid : Named.id (Named.rename entity name) = Named.id entity) :
    (registry.rename entity name).Keyed issued :=
  All.rename h ⟨hid, (h.id_eq hfound).symm ▸ h.issued_id hfound⟩

end MessageBroker.Registry
