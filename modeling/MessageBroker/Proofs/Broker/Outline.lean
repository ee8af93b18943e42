import MessageBroker.Proofs.Broker.RoundTrip

/-! Routes with their bindings by the names of queues, as a snapshot has them,
and how a saved route looks when it is back. -/

namespace MessageBroker

structure RouteOutline where
  name : String
  flags : RouteFlags
  /-- Queues under every key in their order, without a name if they are not
  there. -/
  queues : String → List (Option String)

/-- Bindings under one key are taken together. Queues that are not known are
left out, and each of the others stands where it is first named. -/
def RouteSnapshot.outline (known : List String) (saved : RouteSnapshot) :
    RouteOutline where
  name := saved.name
  flags := saved.flags
  queues key :=
    let bound := saved.bindings.filter fun binding => binding.key = key
    let names := (bound.flatMap BindingSnapshot.queues).filter (· ∈ known)
    names.eraseDups.map some

theorem eraseDups_map {α : Type u} {β : Type v} [DecidableEq α] [DecidableEq β]
    (change : α → β) (items : List α)
    (hapart : ∀ first ∈ items, ∀ second ∈ items,
      change first = change second → first = second) :
    (items.map change).eraseDups = items.eraseDups.map change := by
  induction items using List.reverseRecOn with
  | nil => rfl
  | append_singleton items item ih =>
      have hmem : change item ∈ items.map change ↔ item ∈ items := by
        refine ⟨fun hmapped => ?_, List.mem_map_of_mem⟩
        obtain ⟨other, hother, hsame⟩ := List.mem_map.mp hmapped
        rw [← hapart other (List.mem_append_left _ hother) item (by simp) hsame]
        exact hother
      have hbefore := ih fun first hfirst second hsecond =>
        hapart first (List.mem_append_left _ hfirst) second
          (List.mem_append_left _ hsecond)
      rw [List.map_append, List.map_singleton, MemberIndex.eraseDups_concat,
        MemberIndex.eraseDups_concat, hbefore]
      simp only [hmem]
      split <;> simp

namespace Broker

def queueName? (broker : Broker) (id : QueueId) : Option String :=
  (broker.queues.find? id).map Queue.name

def outline (broker : Broker) (route : Route) : RouteOutline where
  name := route.name
  flags := route.flags
  queues key := (route.bindings.members key).map broker.queueName?

variable {broker after : Broker} {known : List String}

theorem mem_names_iff (hlisted : broker.Listed)
    (hknown : broker.queues.toList.map Queue.name = known) {name : String} :
    name ∈ known ↔ ∃ id, broker.queues.idOf? name = some id := by
  rw [← hknown]
  constructor
  · intro hmem
    obtain ⟨queue, hqueue, rfl⟩ := List.mem_map.mp hmem
    obtain ⟨id, found⟩ := Registry.mem_toList.mp hqueue
    exact ⟨id, hlisted.queues.idOf? found⟩
  · rintro ⟨id, hid⟩
    obtain ⟨queue, found, rfl⟩ := (hlisted.queues.idOf?_iff _ _).mp hid
    exact List.mem_map_of_mem (Registry.mem_toList.mpr ⟨id, found⟩)

theorem queueName?_of_idOf? (hlisted : broker.Listed) {name : String}
    {id : QueueId} (hid : broker.queues.idOf? name = some id) :
    broker.queueName? id = some name := by
  obtain ⟨queue, found, rfl⟩ := (hlisted.queues.idOf?_iff _ _).mp hid
  unfold queueName?
  rw [found]
  rfl

theorem map_queueName? (hlisted : broker.Listed)
    (hknown : broker.queues.toList.map Queue.name = known)
    (names : List String) :
    (names.filterMap broker.queues.idOf?).map broker.queueName? =
      (names.filter (· ∈ known)).map some := by
  induction names with
  | nil => rfl
  | cons name rest ih =>
      have hmem : name ∈ known ↔ _ := mem_names_iff hlisted hknown
      rw [List.filterMap_cons, List.filter_cons]
      cases hid : broker.queues.idOf? name with
      | none =>
          rw [hid] at hmem
          simp only [reduceCtorEq, exists_false, iff_false] at hmem
          rw [if_neg (by simpa using hmem)]
          exact ih
      | some id =>
          have hname : name ∈ known := hmem.mpr ⟨id, hid⟩
          rw [if_pos (by simpa using hname), List.map_cons, List.map_cons,
            queueName?_of_idOf? hlisted hid, ih]

theorem links_under (broker : Broker) (bindings : List BindingSnapshot)
    (key : String) :
    ((((bindings.map broker.linksUnder).flatMap fun group =>
        group.2.map fun queue => (group.1, queue)).filter fun link =>
          link.1 = key).map Prod.snd) =
      ((bindings.filter fun binding => binding.key = key).flatMap
        BindingSnapshot.queues).filterMap broker.queues.idOf? := by
  induction bindings with
  | nil => rfl
  | cons binding rest ih =>
      rw [List.map_cons, List.flatMap_cons, List.filter_append,
        List.map_append, ih, List.filter_cons]
      unfold linksUnder
      by_cases hsame : binding.key = key
      · simp [hsame, List.filter_map, Function.comp_def, List.filterMap_append]
      · simp [hsame, List.filter_map, Function.comp_def]

theorem outline_restoredRoute (hlisted : broker.Listed)
    (hknown : broker.queues.toList.map Queue.name = known)
    (saved : RouteSnapshot) :
    broker.outline (broker.restoredRoute saved) = saved.outline known := by
  have hqueues : ∀ key, ((broker.restoredRoute saved).bindings.members key).map
      broker.queueName? = (saved.outline known).queues key := by
    intro key
    let names := (saved.bindings.filter fun binding =>
      binding.key = key).flatMap BindingSnapshot.queues
    have hmembers : (broker.restoredRoute saved).bindings.members key =
        (names.filterMap broker.queues.idOf?).eraseDups := by
      refine (MemberIndex.members_linkAll_empty _ _).trans ?_
      rw [links_under]
    rw [hmembers, ← eraseDups_map]
    · rw [map_queueName? hlisted hknown]
      exact eraseDups_map some _ fun _ _ _ _ => Option.some.inj
    · intro first hfirst second hsecond hname
      obtain ⟨name, -, hfirst⟩ := List.mem_filterMap.mp hfirst
      obtain ⟨other, -, hsecond⟩ := List.mem_filterMap.mp hsecond
      rw [queueName?_of_idOf? hlisted hfirst,
        queueName?_of_idOf? hlisted hsecond] at hname
      cases hname
      exact Option.some.inj (hfirst.symm.trans hsecond)
  unfold outline RouteSnapshot.outline
  exact congrArg (RouteOutline.mk saved.name saved.flags) (funext hqueues)

theorem outline_of_unbound
    (hunbound : after.queues.mapEntities Queue.unbound =
      broker.queues.mapEntities Queue.unbound) :
    after.outline = broker.outline := by
  have hview : ∀ broker : Broker, broker.queueName? = fun id =>
      ((broker.queues.mapEntities Queue.unbound).find? id).map Queue.name := by
    intro broker
    funext id
    unfold queueName?
    rw [Registry.find?_mapEntities, Option.map_map]
    rfl
  funext route
  unfold outline
  rw [hview after, hview broker, hunbound]

end Broker

end MessageBroker
