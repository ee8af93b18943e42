import MessageBroker.Proofs.Broker.Absence
import MessageBroker.Proofs.Broker.Parting

/-! What a broker is after a client has left, told from what it was before. The
walk over the client's links, with every removal on the way, comes to the same
as leaving out the client and the entities that do not outlast it. -/

namespace MessageBroker

theorem Channel.mem_subscribers {channel : Channel} {client : ClientId} :
    client ∈ channel.subscribers.items ↔
      ∃ tie ∈ channel.standing.ties, tie.client? = some client := by
  unfold subscribers standing
  simp only [MemberSet.mem_items_ofList, List.map_append, List.mem_append,
    List.mem_map, or_and_right, exists_or]
  simp [Tie.client?]

/-- A queue goes if it is to be deleted automatically and nobody but the client
declares it. -/
def Queue.outlasts (queue : Queue) (client : ClientId) : Bool :=
  !(queue.settings.flags.autoDelete && queue.declared.items == [client])

/-- A route goes if it is to be deleted automatically, had a binding to a queue
that goes, and has none to a queue that stays. -/
def Route.outlasts (route : Route) (stays : QueueId → Bool) : Bool :=
  !(route.flags.autoDelete &&
    (route.bindings.pairs.any (fun binding => !stays binding.2) &&
      !route.bindings.pairs.any fun binding => stays binding.2))

/-- A channel goes if it is to be deleted automatically and nobody but the
client subscribes to it. -/
def Channel.outlasts (channel : Channel) (client : ClientId) : Bool :=
  !(channel.flags.autoDelete && channel.subscribers.items == [client])

/-- The entity is there, and does not go with the client. -/
def Broker.outlasts (broker : Broker) (client : ClientId) : Entity → Bool
  | .queue id => (broker.queues.find? id).any (·.outlasts client)
  | .route id => (broker.routes.find? id).any (·.outlasts fun queue =>
      (broker.queues.find? queue).any (·.outlasts client))
  | .channel id => (broker.channels.find? id).any (·.outlasts client)

theorem Queue.outlasts_eq_false_iff {queue : Queue} {client : ClientId} :
    queue.outlasts client = false ↔
      queue.settings.flags.autoDelete = true ∧
        queue.declared.items = [client] := by
  simp [outlasts]

theorem Route.outlasts_eq_false_iff {route : Route} {stays : QueueId → Bool} :
    route.outlasts stays = false ↔
      route.flags.autoDelete = true ∧
        (∃ key queue, route.isBound queue key = true ∧ stays queue = false) ∧
        ∀ key queue, route.isBound queue key = true → stays queue = false := by
  simp [outlasts, isBound, ← MemberIndex.mem_pairs]

theorem Channel.outlasts_eq_false_iff {channel : Channel} {client : ClientId} :
    channel.outlasts client = false ↔
      channel.flags.autoDelete = true ∧
        channel.subscribers.items = [client] := by
  simp [outlasts]

/-- The same memberships in another order. -/
structure ClientLinks.Reordered (links other : ClientLinks) : Prop where
  declared : links.declaredQueues.items.Perm other.declaredQueues.items
  subscribed : links.subscribedQueues.items.Perm other.subscribedQueues.items
  topics : links.topics.pairs.Perm other.topics.pairs
  patterns : links.patterns.pairs.Perm other.patterns.pairs

theorem ClientLinks.Reordered.hasTopic_iff {links other : ClientLinks}
    (h : links.Reordered other) {id : ChannelId} {topic : String} :
    links.hasTopic id topic = true ↔ other.hasTopic id topic = true := by
  unfold hasTopic
  rw [← MemberIndex.mem_pairs, ← MemberIndex.mem_pairs, h.topics.mem_iff]

theorem ClientLinks.Reordered.hasPattern_iff {links other : ClientLinks}
    (h : links.Reordered other) {id : ChannelId} {pattern : String} :
    links.hasPattern id pattern = true ↔
      other.hasPattern id pattern = true := by
  unfold hasPattern
  rw [← MemberIndex.mem_pairs, ← MemberIndex.mem_pairs, h.patterns.mem_iff]

/-- An entity goes exactly when it goes by itself, if none of the ties left in
the end is severed. -/
theorem Fading.eq_none_iff {severed : Tie → Prop} {before : Standing}
    {last : Option Standing} (h : Fading severed False (some before) last)
    (hwhole : ∀ now, last = some now → ∀ tie ∈ now.ties, ¬ severed tie) :
    last = none ↔ before.GoesByItself severed := by
  cases h with
  | goes hgoes => exact iff_of_true rfl hgoes
  | deleted hdeleted => exact hdeleted.elim
  | @stays before now hloses =>
      refine iff_of_false nofun fun hgoes => ?_
      obtain ⟨tie, hmem⟩ := List.exists_mem_of_ne_nil _
        (hloses.tied hgoes.autoDelete hgoes.tied)
      exact hwhole now rfl tie hmem (hgoes.severed tie (hloses.fewer hmem))

namespace Broker

variable {broker after : Broker} {client : ClientId} {stamps : Nat}

theorem severed_eject_iff {entity : Entity} {tie : Tie} {other : ClientId}
    (hother : tie.client? = some other) :
    Severed (Command.eject client).TakesBack after entity tie ↔
      other = client := by
  constructor
  · rintro (htaken | ⟨_, _, rfl, -⟩)
    · exact Option.some.inj (hother.symm.trans htaken)
    · cases hother
  · rintro rfl
    exact .inl hother

theorem severed_eject_bound_iff {entity : Entity} {key : String}
    {queue : QueueId} :
    Severed (Command.eject client).TakesBack after entity (.bound key queue) ↔
      after.queues.find? queue = none := by
  simp [Severed, Command.TakesBack, Tie.client?, standing?]

theorem Consistent.not_severed (h : after.Consistent)
    (habsent : after.clients.get? client = none) {entity : Entity}
    {now : Standing} (hnow : after.standing? entity = some now) {tie : Tie}
    (hmem : tie ∈ now.ties) :
    ¬ Severed (Command.eject client).TakesBack after entity tie := by
  intro hsevered
  have hnobody : ∀ property, ¬ after.clients.Holds client property :=
    fun _ => AssocList.not_holds_of_get? habsent
  cases entity with
  | queue id =>
      obtain ⟨queue, found, rfl⟩ := Option.map_eq_some_iff.mp hnow
      obtain ⟨other, hother, rfl⟩ := Queue.mem_ties.mp hmem
      obtain rfl := (severed_eject_iff rfl).mp hsevered
      exact hnobody _ ((h.memberships.declared id other).mp
        ⟨queue, found, hother⟩)
  | route id =>
      obtain ⟨route, found, rfl⟩ := Option.map_eq_some_iff.mp hnow
      obtain ⟨key, queue, hother, rfl⟩ := Route.mem_ties.mp hmem
      obtain ⟨target, hthere, -⟩ :=
        (h.bindings key id queue).mp ⟨route, found, hother⟩
      have hnone := severed_eject_bound_iff.mp hsevered
      exact Option.some_ne_none target (hthere.symm.trans hnone)
  | channel id =>
      obtain ⟨channel, found, rfl⟩ := Option.map_eq_some_iff.mp hnow
      rcases Channel.mem_ties.mp hmem with
        ⟨topic, other, hother, rfl⟩ | ⟨pattern, other, hother, rfl⟩
      · obtain rfl := (severed_eject_iff rfl).mp hsevered
        exact hnobody _ ((h.memberships.topics topic id other).mp
          ⟨channel, found, hother⟩)
      · obtain rfl := (severed_eject_iff rfl).mp hsevered
        exact hnobody _ ((h.memberships.patterns pattern id other).mp
          ⟨channel, found, hother⟩)

theorem goesByItself_iff_only {entity : Entity} {standing : Standing}
    {members : MemberSet ClientId}
    (hmembers : ∀ other, other ∈ members.items ↔
      ∃ tie ∈ standing.ties, tie.client? = some other)
    (hties : ∀ tie ∈ standing.ties, ∃ other, tie.client? = some other) :
    standing.GoesByItself
        (Severed (Command.eject client).TakesBack after entity) ↔
      standing.autoDelete = true ∧ members.items = [client] := by
  rw [MemberSet.items_eq_singleton_iff]
  constructor
  · rintro ⟨hwishes, htied, hsevered⟩
    refine ⟨hwishes, ?_, fun other hlisted => ?_⟩
    · obtain ⟨tie, hmem⟩ := List.exists_mem_of_ne_nil _ htied
      obtain ⟨other, hother⟩ := hties tie hmem
      exact List.ne_nil_of_mem ((hmembers other).mpr ⟨tie, hmem, hother⟩)
    · obtain ⟨tie, hmem, hother⟩ := (hmembers other).mp hlisted
      exact (severed_eject_iff hother).mp (hsevered tie hmem)
  · rintro ⟨hwishes, hsome, honly⟩
    refine ⟨hwishes, ?_, fun tie hmem => ?_⟩
    · obtain ⟨other, hlisted⟩ := List.exists_mem_of_ne_nil _ hsome
      obtain ⟨tie, hmem, -⟩ := (hmembers other).mp hlisted
      exact List.ne_nil_of_mem hmem
    · obtain ⟨other, hother⟩ := hties tie hmem
      exact (severed_eject_iff hother).mpr
        (honly other ((hmembers other).mpr ⟨tie, hmem, hother⟩))

theorem standing?_eject_eq_none_iff (h : broker.Consistent) {entity : Entity}
    {before : Standing} (hbefore : broker.standing? entity = some before) :
    (broker.eject client).state.standing? entity = none ↔
      before.GoesByItself (Severed (Command.eject client).TakesBack
        (broker.eject client).state entity) := by
  have hafter := (withdrawals_eject h client).consistent h
  have hfading := fades_eject h client entity
  rw [hbefore] at hfading
  apply hfading.eq_none_iff
  intro now hnow tie hmem
  exact hafter.not_severed (broker.get?_clients_eject client) hnow hmem

theorem queue_goes_iff (h : broker.Consistent) (client : ClientId)
    {id : QueueId} {queue : Queue}
    (found : broker.queues.find? id = some queue) :
    (broker.eject client).state.queues.find? id = none ↔
      queue.settings.flags.autoDelete = true ∧
        queue.declared.items = [client] := by
  have hbefore : broker.standing? (.queue id) = some queue.standing :=
    congrArg (Option.map Queue.standing) found
  rw [← Option.map_eq_none_iff (f := Queue.standing)]
  refine (standing?_eject_eq_none_iff h hbefore).trans ?_
  apply goesByItself_iff_only
  · intro other
    simp [Queue.standing, Tie.client?]
  · intro tie hmem
    obtain ⟨other, -, rfl⟩ := Queue.mem_ties.mp hmem
    exact ⟨other, rfl⟩

theorem route_goes_iff (h : broker.Consistent) (client : ClientId)
    {id : RouteId} {route : Route}
    (found : broker.routes.find? id = some route) :
    (broker.eject client).state.routes.find? id = none ↔
      route.flags.autoDelete = true ∧
        (∃ key queue, route.isBound queue key = true ∧
          (broker.eject client).state.queues.find? queue = none) ∧
        ∀ key queue, route.isBound queue key = true →
          (broker.eject client).state.queues.find? queue = none := by
  have hbefore : broker.standing? (.route id) = some route.standing :=
    congrArg (Option.map Route.standing) found
  rw [← Option.map_eq_none_iff (f := Route.standing)]
  refine (standing?_eject_eq_none_iff h hbefore).trans ?_
  constructor
  · rintro ⟨hwishes, htied, hsevered⟩
    have hgone : ∀ key queue, route.isBound queue key = true →
        (broker.eject client).state.queues.find? queue = none :=
      fun key queue hbound => severed_eject_bound_iff.mp
        (hsevered _ (Route.mem_ties.mpr ⟨key, queue, hbound, rfl⟩))
    obtain ⟨tie, hmem⟩ := List.exists_mem_of_ne_nil _ htied
    obtain ⟨key, queue, hbound, -⟩ := Route.mem_ties.mp hmem
    exact ⟨hwishes, ⟨key, queue, hbound, hgone key queue hbound⟩, hgone⟩
  · rintro ⟨hwishes, ⟨key, queue, hbound, -⟩, hgone⟩
    have hmem := Route.mem_ties.mpr ⟨key, queue, hbound, rfl⟩
    refine ⟨hwishes, List.ne_nil_of_mem hmem, fun tie hmem => ?_⟩
    obtain ⟨another, other, hother, rfl⟩ := Route.mem_ties.mp hmem
    exact severed_eject_bound_iff.mpr (hgone another other hother)

theorem channel_goes_iff (h : broker.Consistent) (client : ClientId)
    {id : ChannelId} {channel : Channel}
    (found : broker.channels.find? id = some channel) :
    (broker.eject client).state.channels.find? id = none ↔
      channel.flags.autoDelete = true ∧
        channel.subscribers.items = [client] := by
  have hbefore : broker.standing? (.channel id) = some channel.standing :=
    congrArg (Option.map Channel.standing) found
  rw [← Option.map_eq_none_iff (f := Channel.standing)]
  refine (standing?_eject_eq_none_iff h hbefore).trans ?_
  apply goesByItself_iff_only
  · exact fun _ => Channel.mem_subscribers
  · intro tie hmem
    rcases Channel.mem_ties.mp hmem with
      ⟨_, other, -, rfl⟩ | ⟨_, other, -, rfl⟩
    · exact ⟨other, rfl⟩
    · exact ⟨other, rfl⟩

/-- What may go is there afterwards exactly if it was there and outlasts what
happened. -/
theorem exists_iff_any {α : Type} {before after : Option α}
    {outlasts : α → Bool}
    (hold : (∃ value, after = some value) → ∃ value, before = some value)
    (hgoes : ∀ value, before = some value →
      (after = none ↔ outlasts value = false)) :
    (∃ value, after = some value) ↔ before.any outlasts = true := by
  cases before with
  | none =>
      refine iff_of_false (fun hthere => ?_) Bool.false_ne_true
      obtain ⟨_, hnone⟩ := hold hthere
      cases hnone
  | some value =>
      rw [← Option.ne_none_iff_exists', Ne, hgoes value rfl, Bool.not_eq_false]
      rfl

theorem has_eject_queue (h : broker.Orderly) (client : ClientId)
    (id : QueueId) :
    (broker.eject client).state.Has (.queue id) ↔
      broker.outlasts client (.queue id) = true := by
  have hold : (broker.eject client).state.Has (.queue id) →
      broker.Has (.queue id) := (parting_eject h client).has
  exact exists_iff_any hold fun _ found =>
    (queue_goes_iff h.consistent client found).trans
      Queue.outlasts_eq_false_iff.symm

theorem has_eject (h : broker.Orderly) (client : ClientId) (entity : Entity) :
    (broker.eject client).state.Has entity ↔
      broker.outlasts client entity = true := by
  have hold : (broker.eject client).state.Has entity → broker.Has entity :=
    (parting_eject h client).has
  cases entity with
  | queue id => exact has_eject_queue h client id
  | route id =>
      have hgone : ∀ queue,
          (broker.eject client).state.queues.find? queue = none ↔
            (broker.queues.find? queue).any (·.outlasts client) = false := by
        intro queue
        rw [← Bool.not_eq_true, Option.eq_none_iff_forall_ne_some, ← not_exists]
        exact not_congr (has_eject_queue h client queue)
      apply exists_iff_any hold
      intro route found
      rw [route_goes_iff h.consistent client found,
        Route.outlasts_eq_false_iff]
      simp only [hgone]
  | channel id =>
      exact exists_iff_any hold fun _ found =>
        (channel_goes_iff h.consistent client found).trans
          Channel.outlasts_eq_false_iff.symm

/-! A broker in which the client is not there, and in which everything stays, is
as it is. -/

section Whole

variable {stays : Entity → Bool}

theorem Consistent.queue_without_eq (h : after.Consistent)
    (habsent : after.clients.get? client = none)
    (hall : ∀ entity, after.Has entity → stays entity = true) {id : QueueId}
    {queue : Queue} (found : after.queues.find? id = some queue) :
    queue.without client (fun route => stays (.route route)) = queue := by
  have hnobody : ∀ property, ¬ after.clients.Holds client property :=
    fun _ => AssocList.not_holds_of_get? habsent
  apply Queue.without_eq_self
  · intro hmem
    exact hnobody _ ((h.memberships.declared id client).mp ⟨queue, found, hmem⟩)
  · intro hmem
    exact hnobody _
      ((h.memberships.subscribed id client).mp ⟨queue, found, hmem⟩)
  · intro key route hbound
    obtain ⟨target, hthere, -⟩ :=
      (h.bindings key route id).mpr ⟨queue, found, hbound⟩
    exact hall (.route route) ⟨target, hthere⟩

theorem Consistent.route_keepQueues_eq (h : after.Consistent)
    (hall : ∀ entity, after.Has entity → stays entity = true) {id : RouteId}
    {route : Route} (found : after.routes.find? id = some route) :
    route.keepQueues (fun queue => stays (.queue queue)) = route := by
  apply Route.keepQueues_eq_self
  intro key queue hbound
  obtain ⟨target, hthere, -⟩ :=
    (h.bindings key id queue).mp ⟨route, found, hbound⟩
  exact hall (.queue queue) ⟨target, hthere⟩

theorem Consistent.channel_without_eq (h : after.Consistent)
    (habsent : after.clients.get? client = none) {id : ChannelId}
    {channel : Channel} (found : after.channels.find? id = some channel) :
    channel.without client = channel := by
  have hnobody : ∀ property, ¬ after.clients.Holds client property :=
    fun _ => AssocList.not_holds_of_get? habsent
  apply Channel.without_eq_self
  · intro topic htopic
    exact hnobody _
      ((h.memberships.topics topic id client).mp ⟨channel, found, htopic⟩)
  · intro pattern hpattern
    exact hnobody _
      ((h.memberships.patterns pattern id client).mp ⟨channel, found, hpattern⟩)

theorem Consistent.links_keepQueues_eq (h : after.Consistent)
    (hall : ∀ entity, after.Has entity → stays entity = true)
    {other : ClientId} {links : ClientLinks}
    (hlinks : after.clients.get? other = some links) :
    links.keepQueues (fun queue => stays (.queue queue)) = links := by
  apply ClientLinks.keepQueues_eq_self
  · intro id hmem
    obtain ⟨queue, found, -⟩ :=
      (h.memberships.declared id other).mpr ⟨links, hlinks, hmem⟩
    exact hall (.queue id) ⟨queue, found⟩
  · intro id hmem
    obtain ⟨queue, found, -⟩ :=
      (h.memberships.subscribed id other).mpr ⟨links, hlinks, hmem⟩
    exact hall (.queue id) ⟨queue, found⟩

theorem without_eq_self (h : after.Orderly)
    (habsent : after.clients.get? client = none)
    (hall : ∀ entity, after.Has entity → stays entity = true) :
    after.without client stays = after := by
  have hqueues := Registry.mapEntities_keep_eq_self h.listed.queues
    fun id queue found => ⟨hall (.queue id) ⟨queue, found⟩,
      h.consistent.queue_without_eq habsent hall found⟩
  have hroutes := Registry.mapEntities_keep_eq_self h.listed.routes
    fun id route found => ⟨hall (.route id) ⟨route, found⟩,
      h.consistent.route_keepQueues_eq hall found⟩
  have hchannels := Registry.mapEntities_keep_eq_self h.listed.channels
    fun id channel found => ⟨hall (.channel id) ⟨channel, found⟩,
      h.consistent.channel_without_eq habsent found⟩
  have hclients := AssocList.mapValues_eq_self fun _ _ hlinks =>
    h.consistent.links_keepQueues_eq hall hlinks
  unfold without
  rw [hqueues, hroutes, hchannels, AssocList.erase_eq_self habsent, hclients]

end Whole

theorem eject_eq (h : broker.Orderly) {links : ClientLinks}
    (hlinks : broker.clients.get? client = some links) :
    broker.eject client = {
      state := broker.without client (broker.outlasts client)
      result := .ok true
      signals := [.disconnect client]
    } := by
  have hparting := parting_eject h client
  have hself := without_eq_self (h.withdrawals hparting.withdrawals)
    (broker.get?_clients_eject client) fun entity =>
      (has_eject h client entity).mp
  rw [hparting.same _ fun entity => (has_eject h client entity).mpr] at hself
  rw [hself]
  unfold eject
  rw [hlinks]

theorem Orderly.reorder (h : broker.Orderly) {links other : ClientLinks}
    (hlinks : broker.clients.get? client = some links)
    (hreordered : links.Reordered other) :
    (broker.modifyLinks client fun _ => other).Orderly := by
  obtain ⟨⟨hnumbered, hmembers, hbindings⟩, hlisted⟩ := h
  have hmirrored : (broker.modifyLinks client
      fun _ => other).MembershipsMirrored := {
    declared := hmembers.declared.replaceRight hlinks fun _ =>
      hreordered.declared.mem_iff.symm
    subscribed := hmembers.subscribed.replaceRight hlinks fun _ =>
      hreordered.subscribed.mem_iff.symm
    topics := fun topic => (hmembers.topics topic).replaceRight hlinks
      fun _ => hreordered.hasTopic_iff.symm
    patterns := fun pattern => (hmembers.patterns pattern).replaceRight hlinks
      fun _ => hreordered.hasPattern_iff.symm
    roles := hmembers.roles
  }
  exact ⟨⟨⟨hnumbered.queues, hnumbered.routes, hnumbered.channels⟩, hmirrored,
    hbindings⟩, ⟨hlisted.queues, hlisted.routes, hlisted.channels⟩⟩

theorem eject_reordered (h : broker.Orderly) {links other : ClientLinks}
    (hlinks : broker.clients.get? client = some links)
    (hreordered : links.Reordered other) :
    (broker.modifyLinks client fun _ => other).eject client =
      broker.eject client := by
  have hother : (broker.modifyLinks client fun _ => other).clients.get?
      client = some other := by
    refine (AssocList.get?_modify _ _ _ _).trans ?_
    rw [if_pos rfl, hlinks]
    rfl
  have hsame : (broker.modifyLinks client fun _ => other).without client
      (broker.outlasts client) =
        broker.without client (broker.outlasts client) := by
    simp only [without, modifyLinks, AssocList.erase_modify_self]
  have houtlasts : (broker.modifyLinks client fun _ => other).outlasts client =
      broker.outlasts client := by
    funext entity
    cases entity <;> rfl
  rw [eject_eq (h.reorder hlinks hreordered) hother, eject_eq h hlinks,
    houtlasts, hsame]

/-- What becomes of a broker when a client that is connected is disconnected. -/
structure EjectsExactly (broker : Broker) (client : ClientId) : Prop where
  /-- Of the state before, only the client is left out, and whatever does not
  outlast it. -/
  outcome : broker.eject client = {
    state := broker.without client (broker.outlasts client)
    result := .ok true
    signals := [.disconnect client]
  }
  disconnected : (broker.eject client).state.clients.contains client = false
  queue_goes : ∀ id queue, broker.queues.find? id = some queue →
    ((broker.eject client).state.queues.find? id = none ↔
      queue.settings.flags.autoDelete = true ∧
        queue.declared.items = [client])
  route_goes : ∀ id route, broker.routes.find? id = some route →
    ((broker.eject client).state.routes.find? id = none ↔
      route.flags.autoDelete = true ∧
        (∃ key queue, route.isBound queue key = true ∧
          (broker.eject client).state.queues.find? queue = none) ∧
        ∀ key queue, route.isBound queue key = true →
          (broker.eject client).state.queues.find? queue = none)
  channel_goes : ∀ id channel, broker.channels.find? id = some channel →
    ((broker.eject client).state.channels.find? id = none ↔
      channel.flags.autoDelete = true ∧
        channel.subscribers.items = [client])
  /-- The order in which the client's links are kept does not matter. -/
  unordered : ∀ links other, broker.clients.get? client = some links →
    links.Reordered other →
    (broker.modifyLinks client fun _ => other).eject client =
      broker.eject client

theorem Reached.eject_exact (reached : Reached stamps broker)
    (connected : broker.clients.contains client = true) :
    broker.EjectsExactly client := by
  have h : broker.Orderly := ⟨reached.consistent, reached.listed⟩
  obtain ⟨links, hlinks⟩ := Option.isSome_iff_exists.mp connected
  exact {
    outcome := eject_eq h hlinks
    disconnected := by
      rw [AssocList.contains, get?_clients_eject]
      rfl
    queue_goes := fun _ _ => queue_goes_iff h.consistent client
    route_goes := fun _ _ => route_goes_iff h.consistent client
    channel_goes := fun _ _ => channel_goes_iff h.consistent client
    unordered := fun _ _ => eject_reordered h
  }

/-- A queue and a route of the client's own go. Those that it shares stay. -/
theorem Reached.eject_exact_shared :
    (let broker := (idle .default ⟨0⟩).run [
      .connect ⟨7⟩, .connect ⟨8⟩,
      .createQueue "jobs" ⟨10, 64, ⟨true, false, false, false⟩⟩,
      .createQueue "logs" ⟨10, 64, ⟨true, false, false, false⟩⟩,
      .createRoute "work" ⟨true, false, false⟩,
      .createRoute "all" ⟨true, false, false⟩,
      .declareQueue ⟨7⟩ ⟨1⟩, .declareQueue ⟨7⟩ ⟨2⟩, .declareQueue ⟨8⟩ ⟨2⟩,
      .bind ⟨3⟩ ⟨1⟩ "urgent", .bind ⟨4⟩ ⟨1⟩ "urgent", .bind ⟨4⟩ ⟨2⟩ "late"]
    broker.clients.contains ⟨7⟩ = true ∧ broker.EjectsExactly ⟨7⟩ ∧
      broker.entities =
        [.queue ⟨1⟩, .queue ⟨2⟩, .route ⟨3⟩, .route ⟨4⟩] ∧
      (broker.eject ⟨7⟩).state.entities = [.queue ⟨2⟩, .route ⟨4⟩]) := by
  intro broker
  have hidle : Reached 0 (idle .default ⟨0⟩) :=
    .start (start_of_sound (by decide))
  have reached : Reached _ broker := hidle.run _
  exact ⟨rfl, reached.eject_exact rfl, by decide, by decide⟩

end Broker

end MessageBroker
