import MessageBroker.Broker.Restore
import MessageBroker.Proofs.Broker.Naming
import MessageBroker.Proofs.Queue.Refilling

/-! What each step of a restore makes of the broker, as one change of its
registries. -/

namespace MessageBroker

namespace Broker

variable {broker : Broker}

theorem createQueue_eq_done {name : String} {settings : QueueSettings}
    (hvalid : Name.isValid name = true)
    (hfresh : broker.queues.hasName name = false)
    (hsound : queueFault? broker.config settings = none) :
    broker.createQueue name settings = .done {
      broker with
      queues := broker.queues.add
        (.create ⟨broker.lastNumber + 1⟩ name settings
          (broker.slots ⟨broker.lastNumber + 1⟩))
      lastNumber := broker.lastNumber + 1
    } ⟨broker.lastNumber + 1⟩ := by
  unfold createQueue
  simp only [hvalid, hfresh, hsound, Bool.not_true, Bool.false_eq_true,
    if_false]

theorem of_createQueue_ok {name : String} {settings : QueueSettings}
    {id : QueueId} (hcreate : (broker.createQueue name settings).result = .ok id) :
    Name.isValid name = true ∧ broker.queues.hasName name = false ∧
      queueFault? broker.config settings = none := by
  unfold createQueue at hcreate
  split at hcreate
  · cases hcreate
  · rename_i hvalid
    split at hcreate
    · cases hcreate
    · rename_i hfresh
      split at hcreate
      · cases hcreate
      · rename_i hsound
        exact ⟨by simpa using hvalid, by simpa using hfresh, hsound⟩

theorem restoreMessages_eq (id : QueueId) (broker : Broker)
    (messages : List MessageSnapshot) :
    messages.foldl (restoreMessage id) broker = {
      broker with
      clock := (broker.clock.nextTags messages.length).2
      queues := broker.queues.update id fun queue =>
        queue.refillAll broker.clock messages
    } := by
  induction messages generalizing broker with
  | nil =>
      have hsame : (broker.queues.update id fun queue =>
          queue.refillAll broker.clock []) = broker.queues :=
        Registry.update_eq_self fun _ _ => rfl
      rw [hsame]
      rfl
  | cons saved rest ih =>
      rw [List.foldl_cons, ih]
      simp only [restoreMessage, Registry.update_update]
      rfl

def restoredQueue (id : QueueId) (slots : SlotPolicy) (clock : TagClock)
    (saved : QueueSnapshot) : Queue :=
  (Queue.create id saved.name saved.settings slots).refillAll clock
    saved.messages

theorem restoreQueue_eq_ok {saved : QueueSnapshot}
    (hvalid : Name.isValid saved.name = true)
    (hfresh : broker.queues.hasName saved.name = false)
    (hsound : queueFault? broker.config saved.settings = none) :
    restoreQueue broker saved = .ok {
      broker with
      clock := (broker.clock.nextTags saved.messages.length).2
      queues := broker.queues.add
        (restoredQueue ⟨broker.lastNumber + 1⟩
          (broker.slots ⟨broker.lastNumber + 1⟩) broker.clock saved)
      lastNumber := broker.lastNumber + 1
    } := by
  have hrefilled := (Queue.create ⟨broker.lastNumber + 1⟩ saved.name
    saved.settings
    (broker.slots ⟨broker.lastNumber + 1⟩)).refilled_refillAll broker.clock
      saved.messages
  have hadd := broker.queues.update_add _
    (fun queue => queue.refillAll broker.clock saved.messages)
    hrefilled.id_eq hrefilled.name_eq
  unfold restoreQueue restoredQueue
  rw [createQueue_eq_done hvalid hfresh hsound]
  simp only [Result.require, Outcome.result_done, Outcome.state_done, Except.map,
    restoreMessages_eq]
  rw [← hadd]
  rfl

end Broker

/-- The queue without its side of the bindings. -/
def Queue.unbound (queue : Queue) : Queue :=
  { queue with bindings := .empty }

def Route.bindAll (route : Route) (links : List (String × QueueId)) : Route :=
  { route with bindings := route.bindings.linkAll links }

theorem Route.bindAll_append (route : Route)
    (first second : List (String × QueueId)) :
    route.bindAll (first ++ second) = (route.bindAll first).bindAll second := by
  unfold bindAll
  rw [MemberIndex.linkAll_append]

theorem Route.bind_of_isBound {route : Route} {queue : QueueId} {key : String}
    (hbound : route.isBound queue key = true) : route.bind queue key = route := by
  unfold bind
  rw [MemberIndex.link_of_contains hbound]

namespace Broker

variable {broker : Broker} {id : RouteId} {route : Route}

theorem bind_eq_done (hnumbered : broker.Numbered)
    (foundRoute : broker.routes.find? id = some route) {queue : QueueId}
    {target : Queue} (foundQueue : broker.queues.find? queue = some target)
    (key : String) :
    ∃ queues, broker.bind id queue key = .done {
        broker with
        routes := broker.routes.update id fun route => route.bind queue key
        queues := queues
      } () ∧
      queues.mapEntities Queue.unbound =
        broker.queues.mapEntities Queue.unbound := by
  unfold bind
  rw [foundRoute]
  dsimp only
  rw [foundQueue]
  dsimp only
  split
  · rename_i hbound
    have hsame : (broker.routes.update id fun route => route.bind queue key) =
        broker.routes := by
      refine Registry.update_eq_self fun found hfound => ?_
      rw [foundRoute] at hfound
      cases hfound
      exact Route.bind_of_isBound hbound
    exact ⟨broker.queues, by rw [hsame], rfl⟩
  · have hroute := hnumbered.routes.put_eq_update
      (fun route => route.bind queue key) foundRoute rfl
    have hqueue := hnumbered.queues.put_eq_update
      (fun target => target.linkRoute id key) foundQueue rfl
    refine ⟨_, by rw [hroute, hqueue], Registry.mapEntities_update ?_⟩
    exact fun _ => rfl

/-- Where a saved binding leads, if a queue has the name that it tells. -/
def link? (broker : Broker) (binding : String × String) :
    Option (String × QueueId) :=
  (broker.queues.idOf? binding.2).map fun queue => (binding.1, queue)

theorem restoreBinding_eq_ok (hnumbered : broker.Numbered)
    (hlisted : broker.Listed) (found : broker.routes.find? id = some route)
    (binding : String × String) :
    ∃ queues, restoreBinding id broker binding = .ok {
        broker with
        routes := broker.routes.update id fun route =>
          route.bindAll (broker.link? binding).toList
        queues := queues
      } ∧
      queues.mapEntities Queue.unbound =
        broker.queues.mapEntities Queue.unbound := by
  obtain ⟨key, name⟩ := binding
  unfold restoreBinding link?
  dsimp only
  cases hname : broker.queues.idOf? name with
  | none =>
      have hsame : (broker.routes.update id fun route => route.bindAll []) =
          broker.routes := Registry.update_eq_self fun _ _ => rfl
      refine ⟨broker.queues, ?_, rfl⟩
      simp only [Option.map_none, Option.toList_none, hsame]
  | some queue =>
      obtain ⟨target, foundQueue, -⟩ := (hlisted.queues.idOf?_iff _ _).mp hname
      obtain ⟨queues, hbind, hunbound⟩ :=
        bind_eq_done hnumbered found foundQueue key
      refine ⟨queues, ?_, hunbound⟩
      simp only [hbind, Result.require, Outcome.result_done, Outcome.state_done]
      rfl

theorem restoreBindings_eq_ok (h : broker.Consistent) (hlisted : broker.Listed)
    (found : broker.routes.find? id = some route)
    (bindings : List (String × String)) :
    ∃ queues, bindings.foldlM (restoreBinding id) broker = .ok {
        broker with
        routes := broker.routes.update id fun route =>
          route.bindAll (bindings.filterMap broker.link?)
        queues := queues
      } ∧
      queues.mapEntities Queue.unbound =
        broker.queues.mapEntities Queue.unbound := by
  induction bindings generalizing broker route with
  | nil =>
      have hsame : (broker.routes.update id fun route => route.bindAll []) =
          broker.routes := Registry.update_eq_self fun _ _ => rfl
      refine ⟨broker.queues, ?_, rfl⟩
      rw [List.filterMap_nil, hsame]
      rfl
  | cons binding rest ih =>
      obtain ⟨queues, hfirst, hunbound⟩ :=
        restoreBinding_eq_ok h.numbered hlisted found binding
      have hedits := (restoration_binding h hfirst).edits
      have hfound := (Registry.find?_update broker.routes id id
        fun route => route.bindAll (broker.link? binding).toList).trans
          (by rw [if_pos rfl, found])
      obtain ⟨last, hrest, hlast⟩ := ih (h.edits hedits)
        (hlisted.edits h.numbered hedits) hfound
      have hlinks : link? { broker with
          routes := broker.routes.update id fun route =>
            route.bindAll (broker.link? binding).toList
          queues := queues } = broker.link? := by
        have hnames := congrArg Registry.names hunbound
        change queues.names = broker.queues.names at hnames
        unfold link? Registry.idOf?
        rw [hnames]
      rw [hlinks] at hrest
      have hcompose : ∀ route : Route,
          (route.bindAll (broker.link? binding).toList).bindAll
              (rest.filterMap broker.link?) =
            route.bindAll ((binding :: rest).filterMap broker.link?) := by
        intro route
        rw [← Route.bindAll_append, List.filterMap_cons]
        cases broker.link? binding <;> rfl
      refine ⟨last, ?_, hlast.trans hunbound⟩
      rw [List.foldlM_cons, hfirst]
      refine hrest.trans ?_
      simp only [Registry.update_update, Function.comp_def, hcompose]

/-- The queues under a saved key, as far as they are known. -/
def linksUnder (broker : Broker) (binding : BindingSnapshot) :
    String × List QueueId :=
  (binding.key, binding.queues.filterMap broker.queues.idOf?)

theorem filterMap_link? (broker : Broker) (bindings : List BindingSnapshot) :
    (bindings.flatMap fun binding =>
        binding.queues.map fun name => (binding.key, name)).filterMap
          broker.link? =
      (bindings.map broker.linksUnder).flatMap fun group =>
        group.2.map fun queue => (group.1, queue) := by
  rw [List.filterMap_flatMap, List.flatMap_map]
  refine List.flatMap_congr fun binding _ => ?_
  rw [List.filterMap_map]
  unfold linksUnder
  dsimp only
  rw [List.map_filterMap]
  rfl

def restoredRoute (broker : Broker) (saved : RouteSnapshot) : Route :=
  (Route.create ⟨broker.lastNumber + 1⟩ saved.name saved.flags).bindAll
    ((saved.bindings.map broker.linksUnder).flatMap fun group =>
      group.2.map fun queue => (group.1, queue))

theorem createRoute_eq_done {name : String} (flags : RouteFlags)
    (hvalid : Name.isValid name = true)
    (hfresh : broker.routes.hasName name = false) :
    broker.createRoute name flags = .done {
      broker with
      routes := broker.routes.add (.create ⟨broker.lastNumber + 1⟩ name flags)
      lastNumber := broker.lastNumber + 1
    } ⟨broker.lastNumber + 1⟩ := by
  unfold createRoute
  simp only [hvalid, hfresh, Bool.not_true, Bool.false_eq_true, if_false]

theorem of_createRoute_ok {name : String} {flags : RouteFlags} {id : RouteId}
    (hcreate : (broker.createRoute name flags).result = .ok id) :
    Name.isValid name = true ∧ broker.routes.hasName name = false := by
  unfold createRoute at hcreate
  split at hcreate
  · cases hcreate
  · rename_i hvalid
    split at hcreate
    · cases hcreate
    · rename_i hfresh
      exact ⟨by simpa using hvalid, by simpa using hfresh⟩

theorem restoreRoute_eq_ok (h : broker.Consistent) (hlisted : broker.Listed)
    {saved : RouteSnapshot} (hvalid : Name.isValid saved.name = true)
    (hfresh : broker.routes.hasName saved.name = false) :
    ∃ queues, restoreRoute broker saved = .ok {
        broker with
        routes := broker.routes.add (broker.restoredRoute saved)
        queues := queues
        lastNumber := broker.lastNumber + 1
      } ∧
      queues.mapEntities Queue.unbound =
        broker.queues.mapEntities Queue.unbound := by
  let route := Route.create ⟨broker.lastNumber + 1⟩ saved.name saved.flags
  let created : Broker := {
    broker with
    routes := broker.routes.add route
    lastNumber := broker.lastNumber + 1
  }
  have hcreate : broker.createRoute saved.name saved.flags =
      .done created ⟨broker.lastNumber + 1⟩ :=
    createRoute_eq_done saved.flags hvalid hfresh
  have hedits : Edits broker 0 created := by
    have hroute := extension_createRoute broker saved.name saved.flags
    rw [hcreate] at hroute
    exact hroute.arrangements.edits
  have found : created.routes.find? ⟨broker.lastNumber + 1⟩ = some route :=
    (Registry.find?_add broker.routes route _).trans (if_pos rfl)
  obtain ⟨queues, hbindings, hunbound⟩ := restoreBindings_eq_ok
    (h.edits hedits) (hlisted.edits h.numbered hedits) found
    (saved.bindings.flatMap fun binding =>
      binding.queues.map fun name => (binding.key, name))
  refine ⟨queues, ?_, hunbound⟩
  have hadd := broker.routes.update_add route
    (fun route => route.bindAll ((saved.bindings.map broker.linksUnder).flatMap
      fun group => group.2.map fun queue => (group.1, queue))) rfl rfl
  unfold restoreRoute
  rw [hcreate]
  refine hbindings.trans ?_
  rw [filterMap_link?, restoredRoute, ← hadd]
  rfl

theorem of_createChannel_ok {name : String} {flags : ChannelFlags}
    {id : ChannelId}
    (hcreate : (broker.createChannel name flags).result = .ok id) :
    Name.isValid name = true ∧ broker.channels.hasName name = false := by
  unfold createChannel at hcreate
  split at hcreate
  · cases hcreate
  · rename_i hvalid
    split at hcreate
    · cases hcreate
    · rename_i hfresh
      exact ⟨by simpa using hvalid, by simpa using hfresh⟩

theorem restoreChannel_eq_ok {saved : ChannelSnapshot}
    (hvalid : Name.isValid saved.name = true)
    (hfresh : broker.channels.hasName saved.name = false) :
    restoreChannel broker saved = .ok {
      broker with
      channels := broker.channels.add (.create ⟨broker.lastNumber + 1⟩
        saved.name saved.flags broker.config.channelMaxMessageSize)
      lastNumber := broker.lastNumber + 1
    } := by
  unfold restoreChannel createChannel
  simp only [hvalid, hfresh, Bool.not_true, Bool.false_eq_true, if_false]
  rfl

end Broker

end MessageBroker
