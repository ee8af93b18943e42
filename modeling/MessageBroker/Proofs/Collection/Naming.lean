import MessageBroker.Proofs.Collection.Registry

/-! Registries in which the names lead to the entities that have them, and to no
others. -/

namespace MessageBroker.Registry

variable {ι : Type u} {ε : Type v}

theorem hasName_iff {registry : Registry ι ε} {name : String} :
    registry.hasName name = true ↔ ∃ id, registry.idOf? name = some id := by
  unfold hasName idOf? AssocList.contains
  rw [Option.isSome_iff_exists]

variable [DecidableEq ι] [Named ι ε]

/-- A name leads to the entity that has it, and every entity is a proper one. -/
structure Lists (registry : Registry ι ε) (proper : ε → Prop) : Prop where
  idOf?_iff : ∀ name id, registry.idOf? name = some id ↔
    ∃ entity, registry.find? id = some entity ∧ Named.name entity = name
  proper : registry.All fun _ => proper

theorem idOf?_add (registry : Registry ι ε) (entity : ε) (name : String) :
    (registry.add entity).idOf? name =
      if name = Named.name entity then some (Named.id entity)
      else registry.idOf? name :=
  AssocList.get?_insert _ _ _ _

theorem idOf?_erase (registry : Registry ι ε) (entity : ε) (name : String) :
    (registry.erase entity).idOf? name =
      if name = Named.name entity then none else registry.idOf? name :=
  AssocList.get?_erase _ _ _

theorem idOf?_rename (registry : Registry ι ε) (entity : ε)
    (next name : String) :
    (registry.rename entity next).idOf? name =
      if name = next then some (Named.id entity)
      else if name = Named.name entity then none
      else registry.idOf? name := by
  refine (AssocList.get?_insert _ _ _ _).trans ?_
  rw [AssocList.get?_erase]
  rfl

namespace Lists

variable {registry : Registry ι ε} {proper : ε → Prop} {id other : ι}
  {entity found : ε} {name : String}

theorem empty : (Registry.empty : Registry ι ε).Lists proper where
  idOf?_iff name id := by
    constructor
    · intro h
      cases h
    · rintro ⟨entity, h, -⟩
      cases h
  proper := all_empty

theorem idOf? (h : registry.Lists proper)
    (hentity : registry.find? id = some entity) :
    registry.idOf? (Named.name entity) = some id :=
  (h.idOf?_iff _ _).mpr ⟨entity, hentity, rfl⟩

theorem id_unique (h : registry.Lists proper)
    (hentity : registry.find? id = some entity)
    (hfound : registry.find? other = some found)
    (hname : Named.name found = Named.name entity) : other = id := by
  have hother := h.idOf? hfound
  rw [hname, h.idOf? hentity] at hother
  exact (Option.some.inj hother).symm

theorem hasName_eq_false (h : registry.Lists proper)
    (habsent : name ∉ registry.toList.map Named.name) :
    registry.hasName name = false := by
  rw [Bool.eq_false_iff]
  intro hpresent
  obtain ⟨id, hid⟩ := hasName_iff.mp hpresent
  obtain ⟨entity, hentity, rfl⟩ := (h.idOf?_iff _ _).mp hid
  exact habsent (List.mem_map_of_mem (mem_toList.mpr ⟨id, hentity⟩))

theorem name_ne (h : registry.Lists proper)
    (hfresh : registry.hasName name = false)
    (hentity : registry.find? id = some entity) : Named.name entity ≠ name := by
  rintro rfl
  rw [hasName_iff.mpr ⟨id, h.idOf? hentity⟩] at hfresh
  cases hfresh

theorem not_mem_names (h : registry.Lists proper)
    (hfresh : registry.hasName name = false) :
    name ∉ registry.toList.map Named.name := by
  intro hmem
  obtain ⟨entity, hentity, hname⟩ := List.mem_map.mp hmem
  obtain ⟨id, found⟩ := mem_toList.mp hentity
  exact h.name_ne hfresh found hname

theorem update (h : registry.Lists proper) (id : ι) {change : ε → ε}
    (hchange : ∀ entity, registry.find? id = some entity →
      Named.name (change entity) = Named.name entity ∧
        (proper entity → proper (change entity))) :
    (registry.update id change).Lists proper where
  idOf?_iff name other := by
    refine (h.idOf?_iff name other).trans ?_
    rw [find?_update]
    split
    · rename_i hother
      subst hother
      constructor
      · rintro ⟨entity, hentity, rfl⟩
        exact ⟨change entity, by rw [hentity]; rfl, (hchange entity hentity).1⟩
      · rintro ⟨changed, hchanged, rfl⟩
        obtain ⟨entity, hentity, rfl⟩ := Option.map_eq_some_iff.mp hchanged
        exact ⟨entity, hentity, (hchange entity hentity).1.symm⟩
    · exact Iff.rfl
  proper := h.proper.update fun entity hentity => (hchange entity hentity).2

theorem foldl_update {σ : Type w} (h : registry.Lists proper) {target : σ → ι}
    {change : σ → ε → ε} (steps : List σ)
    (hchange : ∀ step entity,
      Named.name (change step entity) = Named.name entity ∧
        (proper entity → proper (change step entity))) :
    (steps.foldl (fun registry step =>
      registry.update (target step) (change step)) registry).Lists proper := by
  apply List.foldlRecOn
    (motive := fun registry : Registry ι ε => registry.Lists proper)
  · exact h
  · intro registry hregistry step _
    exact hregistry.update _ fun entity _ => hchange step entity

theorem mapEntities (h : registry.Lists proper) {change : ε → ε}
    (hchange : ∀ entity, Named.name (change entity) = Named.name entity ∧
      (proper entity → proper (change entity))) :
    (registry.mapEntities change).Lists proper where
  idOf?_iff name id := by
    refine (h.idOf?_iff name id).trans ?_
    rw [find?_mapEntities]
    constructor
    · rintro ⟨entity, hentity, rfl⟩
      exact ⟨change entity, by rw [hentity]; rfl, (hchange entity).1⟩
    · rintro ⟨changed, hchanged, rfl⟩
      obtain ⟨entity, hentity, rfl⟩ := Option.map_eq_some_iff.mp hchanged
      exact ⟨entity, hentity, (hchange entity).1.symm⟩
  proper := h.proper.mapEntities fun _ entity _ => (hchange entity).2

theorem add (h : registry.Lists proper)
    (hnew : registry.find? (Named.id entity) = none)
    (hfresh : registry.hasName (Named.name entity) = false)
    (hproper : proper entity) : (registry.add entity).Lists proper where
  idOf?_iff name other := by
    rw [idOf?_add, find?_add]
    by_cases hname : name = Named.name entity
    · rw [if_pos hname, Option.some_inj]
      constructor
      · rintro rfl
        exact ⟨entity, if_pos rfl, hname.symm⟩
      · rintro ⟨found, hfound, hsame⟩
        by_contra hother
        rw [if_neg fun heq => hother heq.symm] at hfound
        exact h.name_ne hfresh hfound (hsame.trans hname)
    · rw [if_neg hname, h.idOf?_iff]
      by_cases hother : other = Named.id entity
      · rw [if_pos hother, hother, hnew]
        constructor
        · rintro ⟨found, hfound, -⟩
          cases hfound
        · rintro ⟨found, hfound, rfl⟩
          cases hfound
          exact absurd rfl hname
      · rw [if_neg hother]
  proper := h.proper.add hproper

theorem erase (h : registry.Lists proper)
    (hentity : registry.find? id = some entity) (hid : Named.id entity = id) :
    (registry.erase entity).Lists proper where
  idOf?_iff name other := by
    rw [idOf?_erase, find?_erase, hid]
    by_cases hname : name = Named.name entity
    · rw [if_pos hname]
      constructor
      · intro hnone
        cases hnone
      · rintro ⟨found, hfound, hsame⟩
        split at hfound
        · cases hfound
        · rename_i hother
          exact absurd (h.id_unique hentity hfound (hsame.trans hname)) hother
    · rw [if_neg hname, h.idOf?_iff]
      by_cases hother : other = id
      · rw [if_pos hother, hother, hentity]
        constructor
        · rintro ⟨found, hfound, rfl⟩
          cases hfound
          exact absurd rfl hname
        · rintro ⟨found, hfound, -⟩
          cases hfound
      · rw [if_neg hother]
  proper := h.proper.erase entity

theorem rename (h : registry.Lists proper)
    (hentity : registry.find? id = some entity) (hid : Named.id entity = id)
    (hfresh : registry.hasName name = false)
    (hname : Named.name (Named.rename entity name) = name)
    (hproper : proper (Named.rename entity name)) :
    (registry.rename entity name).Lists proper where
  idOf?_iff other place := by
    rw [idOf?_rename, find?_rename, hid]
    by_cases hnew : other = name
    · rw [if_pos hnew, Option.some_inj]
      constructor
      · rintro rfl
        exact ⟨_, by rw [if_pos rfl, hentity]; rfl, hname.trans hnew.symm⟩
      · rintro ⟨found, hfound, hsame⟩
        by_contra hplace
        rw [if_neg fun heq => hplace heq.symm] at hfound
        exact h.name_ne hfresh hfound (hsame.trans hnew)
    · rw [if_neg hnew]
      by_cases hold : other = Named.name entity
      · rw [if_pos hold]
        constructor
        · intro hnone
          cases hnone
        · rintro ⟨found, hfound, hsame⟩
          split at hfound
          · obtain ⟨-, -, rfl⟩ := Option.map_eq_some_iff.mp hfound
            exact absurd (hsame.symm.trans hname) hnew
          · rename_i hplace
            exact absurd (h.id_unique hentity hfound (hsame.trans hold)) hplace
      · rw [if_neg hold, h.idOf?_iff]
        by_cases hplace : place = id
        · rw [if_pos hplace, hplace, hentity]
          constructor
          · rintro ⟨found, hfound, rfl⟩
            cases hfound
            exact absurd rfl hold
          · rintro ⟨found, hfound, rfl⟩
            cases hfound
            exact absurd hname hnew
        · rw [if_neg hplace]
  proper := h.proper.rename hproper

end Lists

end MessageBroker.Registry
