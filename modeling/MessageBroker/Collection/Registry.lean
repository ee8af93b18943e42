import MessageBroker.Collection.AssocList

/-! Named entities under identifiers, with the way from a name to its
identifier. -/

namespace MessageBroker

/-- Entities with an identifier and a name that can be changed. -/
class Named (ι : outParam (Type u)) (ε : Type v) where
  id : ε → ι
  name : ε → String
  rename : ε → String → ε

structure Registry (ι : Type u) (ε : Type v) where
  entities : AssocList ι ε
  names : AssocList String ι

namespace Registry

variable {ι : Type u} {ε : Type v}

def empty : Registry ι ε := ⟨.empty, .empty⟩

instance : Inhabited (Registry ι ε) := ⟨empty⟩

def size (registry : Registry ι ε) : Nat :=
  registry.entities.size

/-- The entities in the order in which they were added. -/
def toList (registry : Registry ι ε) : List ε :=
  registry.entities.values

def idOf? (registry : Registry ι ε) (name : String) : Option ι :=
  registry.names.get? name

def hasName (registry : Registry ι ε) (name : String) : Bool :=
  registry.names.contains name

def mapEntities (registry : Registry ι ε) (change : ε → ε) : Registry ι ε :=
  { registry with entities := registry.entities.mapValues change }

variable [DecidableEq ι]

def find? (registry : Registry ι ε) (id : ι) : Option ε :=
  registry.entities.get? id

def update (registry : Registry ι ε) (id : ι) (change : ε → ε) :
    Registry ι ε :=
  { registry with entities := registry.entities.modify id change }

variable [Named ι ε]

def add (registry : Registry ι ε) (entity : ε) : Registry ι ε where
  entities := registry.entities.insert (Named.id entity) entity
  names := registry.names.insert (Named.name entity) (Named.id entity)

def put (registry : Registry ι ε) (entity : ε) : Registry ι ε :=
  registry.update (Named.id entity) fun _ => entity

def erase (registry : Registry ι ε) (entity : ε) : Registry ι ε where
  entities := registry.entities.erase (Named.id entity)
  names := registry.names.erase (Named.name entity)

def rename (registry : Registry ι ε) (entity : ε) (name : String) :
    Registry ι ε where
  entities :=
    registry.entities.modify (Named.id entity) fun _ =>
      Named.rename entity name
  names :=
    (registry.names.erase (Named.name entity)).insert name (Named.id entity)

end Registry

end MessageBroker
