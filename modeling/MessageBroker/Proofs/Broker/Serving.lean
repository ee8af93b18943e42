import MessageBroker.Proofs.Broker.Turns

/-! Turns of the queues that take a message in, and of the bindings that a
publish through a route goes by. -/

namespace MessageBroker

namespace Queue

variable {queue : Queue} {members : List ClientId}

theorem roster?_accepting (hmembers : queue.roster? = some members)
    (message : Message) :
    (queue.accepting message).roster? =
      some (MemberSet.rotateItems members) := by
  obtain ⟨hturning, hitems⟩ := roster?_eq_some_iff.mp hmembers
  unfold accepting
  split
  · rename_i hnobody
    have hnone := isEmpty_messageSubscribers_iff.mp hnobody
    have hrefilled := ((rebuffered_ensureRoom queue).trans
      (rebuffered_enterNewest _ message)).refilled
    rw [roster?_of_refilled hrefilled, hmembers, ← hitems, hnone]
    rfl
  · rw [dispatched, if_pos hturning, roster?_eq_some_iff]
    exact ⟨hturning, congrArg MemberSet.rotateItems hitems⟩

theorem receivers_of_roster (hmembers : queue.roster? = some members) :
    queue.receivers = members.getLast?.toList := by
  obtain ⟨hturning, hitems⟩ := roster?_eq_some_iff.mp hmembers
  rw [receivers, if_pos hturning, MemberSet.first?_rotate, hitems]

theorem messagesOf_acceptingSignals (queue : Queue) (message : Message)
    (name : String) :
    Signal.messagesOf name (queue.acceptingSignals message) =
      if queue.name = name then queue.receivers else [] := by
  have hnotices : Signal.messagesOf name queue.noticeSignals = [] := by
    apply Signal.messagesOf_eq_nil
    intro client tag payload hmem
    obtain ⟨_, -, hnotice⟩ := List.mem_map.mp hmem
    cases hnotice
  rw [acceptingSignals, Signal.messagesOf_append, hnotices, List.append_nil]
  unfold dispatchSignals Signal.messagesOf
  rw [List.filterMap_map]
  split
  · rename_i hname
    simp [hname]
  · rename_i hname
    simp [hname]

theorem not_topic_mem_acceptingSignals {message : Message} {client : ClientId}
    {channel topic : String} {payload : Payload} :
    .deliver client (.topic channel topic payload) ∉
      queue.acceptingSignals message := by
  intro hmem
  rcases List.mem_append.mp hmem with hmessage | hnotice
  · obtain ⟨_, -, hsignal⟩ := List.mem_map.mp hmessage
    cases hsignal
  · obtain ⟨_, -, hsignal⟩ := List.mem_map.mp hnotice
    cases hsignal

end Queue

namespace Broker

variable {broker : Broker} {stamps : Nat}

theorem roster?_acceptAll {messages : List (QueueId × Message)} {id : QueueId}
    {members : List ClientId}
    (hmembers : (broker.queues.find? id).bind Queue.roster? = some members)
    (hnodup : (messages.map Prod.fst).Nodup) :
    ((acceptAll broker.queues messages).find? id).bind Queue.roster? =
      some (if id ∈ messages.map Prod.fst
        then MemberSet.rotateItems members else members) := by
  obtain ⟨queue, found, hqueue⟩ := Option.bind_eq_some_iff.mp hmembers
  split
  · rename_i haccepts
    obtain ⟨entry, hentry, rfl⟩ := List.mem_map.mp haccepts
    unfold acceptAll
    rw [Registry.find?_foldl_update _ _ _ hnodup hentry, found]
    exact Queue.roster?_accepting hqueue entry.2
  · rename_i hrefuses
    unfold acceptAll
    rw [Registry.find?_foldl_update_of_not_mem]
    · exact hmembers
    · exact hrefuses

theorem messagesOf_acceptAll {messages : List (QueueId × Message)}
    {id : QueueId} {queue : Queue} {proper : Queue → Prop}
    (hlists : broker.queues.Lists proper)
    (found : broker.queues.find? id = some queue)
    (hnodup : (messages.map Prod.fst).Nodup) :
    Signal.messagesOf queue.name (messages.flatMap fun entry =>
        broker.acceptingSignals entry.2 entry.1) =
      if id ∈ messages.map Prod.fst then queue.receivers else [] := by
  induction messages with
  | nil => rfl
  | cons entry rest ih =>
      obtain ⟨hfresh, hrest⟩ := List.nodup_cons.mp hnodup
      rw [List.flatMap_cons, Signal.messagesOf_append, ih hrest]
      by_cases hsame : entry.1 = id
      · subst hsame
        rw [acceptingSignals, found]
        dsimp only
        rw [Queue.messagesOf_acceptingSignals, if_pos rfl]
        simp [hfresh]
      · have hnone : Signal.messagesOf queue.name
            (broker.acceptingSignals entry.2 entry.1) = [] := by
          unfold acceptingSignals
          split
          · rfl
          · rename_i other hother
            rw [Queue.messagesOf_acceptingSignals, if_neg]
            exact fun hname => hsame (hlists.id_unique found hother hname)
        have hother : id ≠ entry.1 := fun h => hsame h.symm
        rw [hnone, List.nil_append, List.map_cons]
        simp only [List.mem_cons, hother, false_or]

/-- All that the pushes of a command do to queues, and all that they hand
out. -/
structure TakesIn (broker : Broker) (targets : List QueueId)
    (outcome : Result α) : Prop where
  once : targets.Nodup
  channels : outcome.state.channels = broker.channels
  pushed : ∃ messages : List (QueueId × Message),
    messages.map Prod.fst = targets ∧
    outcome.state.queues = acceptAll broker.queues messages ∧
    outcome.signals = messages.flatMap fun entry =>
      broker.acceptingSignals entry.2 entry.1

theorem takesIn_nothing {outcome : Result α}
    (hstate : outcome.state = broker) (hsignals : outcome.signals = []) :
    broker.TakesIn [] outcome where
  once := .nil
  channels := by rw [hstate]
  pushed := ⟨[], rfl, by rw [hstate]; rfl, hsignals⟩

theorem takesIn_push (reached : Reached stamps broker) (id : QueueId)
    (payload : Payload) (timeToLive : UInt32) :
    broker.TakesIn (broker.accepting (.push id payload timeToLive))
      (broker.push id payload timeToLive) := by
  have htargets : broker.accepting (.push id payload timeToLive) =
      [id].filter (broker.accepts payload timeToLive) := rfl
  have haccepts : broker.accepts payload timeToLive id =
      (broker.push id payload timeToLive).result.isOk := rfl
  rw [htargets, List.filter_singleton, haccepts]
  cases found : broker.queues.find? id with
  | none =>
      have hpush : broker.push id payload timeToLive =
          .refused broker (.queueNotFound id) := by
        unfold push
        rw [found]
      rw [hpush]
      exact takesIn_nothing rfl rfl
  | some queue =>
      rw [push_eq reached.consistent.numbered found
        (reached.followsVerdict id queue found)]
      cases queue.verdict payload with
      | error rejection => exact takesIn_nothing rfl rfl
      | ok =>
          refine ⟨List.nodup_singleton id, rfl,
            [(id, .stamp broker.clock payload timeToLive)], rfl, rfl, ?_⟩
          rw [List.flatMap_singleton, acceptingSignals, found]

theorem bound_or_unbound (broker : Broker) (id : RouteId) (key : String) :
    (∃ route members, broker.routes.find? id = some route ∧
      route.bindings.group? key = some members) ∨
    ∀ route, broker.routes.find? id = some route →
      route.bindings.group? key = none := by
  cases found : broker.routes.find? id with
  | none => exact .inr nofun
  | some route =>
      cases bound : route.bindings.group? key with
      | none =>
          refine .inr fun other hother => ?_
          cases hother
          exact bound
      | some members => exact .inl ⟨route, members, rfl, bound⟩

theorem publishRoute_of_unbound {id : RouteId} {key : String}
    (hunbound : ∀ route, broker.routes.find? id = some route →
      route.bindings.group? key = none)
    (payload : Payload) (timeToLive : UInt32) :
    broker.targets (.publishRoute id key payload timeToLive) = [] ∧
    (broker.publishRoute id key payload timeToLive).state = broker ∧
    (broker.publishRoute id key payload timeToLive).signals = [] := by
  unfold targets publishRoute
  dsimp only
  cases found : broker.routes.find? id with
  | none => exact ⟨rfl, rfl, rfl⟩
  | some route =>
      have htargets : route.targets key =
          .error (.bindingNotFound route.name key) := by
        unfold Route.targets
        rw [hunbound route found]
      dsimp only
      rw [htargets]
      exact ⟨rfl, rfl, rfl⟩

theorem targets_of_bound {id : RouteId} {route : Route} {key : String}
    {members : MemberSet QueueId}
    (found : broker.routes.find? id = some route)
    (bound : route.bindings.group? key = some members) (payload : Payload)
    (timeToLive : UInt32) :
    broker.targets (.publishRoute id key payload timeToLive) =
      route.recipients members := by
  unfold targets
  dsimp only
  rw [found]
  dsimp only
  rw [Route.targets_eq bound]

/-- A publish under a key that is bound passes the turn on, and then its pushes
change nothing but queues and the clock. -/
theorem Reached.publishRoute_of_bound (reached : Reached stamps broker)
    {id : RouteId} {route : Route} {key : String}
    {members : MemberSet QueueId}
    (found : broker.routes.find? id = some route)
    (bound : route.bindings.group? key = some members) (payload : Payload)
    (timeToLive : UInt32) :
    broker.TakesIn
        (broker.accepting (.publishRoute id key payload timeToLive))
        (broker.publishRoute id key payload timeToLive) ∧
      (broker.publishRoute id key payload timeToLive).state.routes =
        broker.routes.put (route.turned key) := by
  have htargets := reached.targets found bound
  have hturned := gains_putTargets htargets.numbered found
    (Route.targets_eq bound)
  have hbegins : Fanout.Begins broker
      ⟨broker.putRoute (route.turned key), 0, []⟩ :=
    ⟨htargets.numbered.edits hturned.arrangements.edits, rfl, rfl⟩
  have haccepting : broker.accepting (.publishRoute id key payload timeToLive) =
      (route.recipients members).filter (broker.accepts payload timeToLive) :=
    congrArg (List.filter _) (targets_of_bound found bound payload timeToLive)
  rw [publishRoute_eq found bound, haccepting]
  dsimp only
  rw [htargets.foldl_next_of_begins hbegins]
  refine ⟨⟨htargets.nodup.filter _, rfl, _,
    Message.keys_copies (TagClock.length_nextTags _ _), rfl, ?_⟩, rfl⟩
  exact List.nil_append _

theorem takesIn_publishRoute (reached : Reached stamps broker) (id : RouteId)
    (key : String) (payload : Payload) (timeToLive : UInt32) :
    broker.TakesIn (broker.accepting (.publishRoute id key payload timeToLive))
      (broker.publishRoute id key payload timeToLive) := by
  rcases broker.bound_or_unbound id key with
    ⟨route, members, found, bound⟩ | hunbound
  · exact (reached.publishRoute_of_bound found bound payload timeToLive).1
  · obtain ⟨htargets, hstate, hsignals⟩ :=
      publishRoute_of_unbound hunbound payload timeToLive
    have hnone : broker.accepting (.publishRoute id key payload timeToLive) =
        [] := congrArg (List.filter _) htargets
    rw [hnone]
    exact takesIn_nothing hstate hsignals

namespace TakesIn

variable {command : Command}

theorem reply {targets : List QueueId} {outcome : Result α}
    (h : broker.TakesIn targets outcome) (reply : α → Reply) :
    broker.TakesIn targets (outcome.reply reply) :=
  ⟨h.once, h.channels, h.pushed⟩

theorem serves_subscribers (reached : Reached stamps broker)
    (h : broker.TakesIn (broker.accepting command) (broker.perform command))
    {id : QueueId} {members : List ClientId}
    (hmembers : broker.roster? (.subscribers id) = some members) :
    broker.Serves command (.subscribers id) members := by
  obtain ⟨messages, hkeys, hqueues, hsignals⟩ := h.pushed
  have hnodup := h.once
  rw [← hkeys] at hnodup
  have hturns : broker.turns command (.subscribers id) =
      decide (id ∈ messages.map Prod.fst) := by
    rw [hkeys]
    rfl
  constructor
  · obtain ⟨queue, found, hqueue⟩ := Option.bind_eq_some_iff.mp hmembers
    rw [served_subscribers found, hsignals, hturns]
    simp only [decide_eq_true_eq]
    rw [messagesOf_acceptAll reached.listed.queues found hnodup,
      Queue.receivers_of_roster hqueue]
  · rw [hturns]
    simp only [decide_eq_true_eq]
    unfold roster?
    dsimp only
    rw [hqueues]
    exact roster?_acceptAll hmembers hnodup

theorem serves_listeners
    (h : broker.TakesIn (broker.accepting command) (broker.perform command))
    {id : ChannelId} {topic : String} {members : List ClientId}
    (hmembers : broker.roster? (.listeners id topic) = some members)
    (hturns : broker.turns command (.listeners id topic) = false) :
    broker.Serves command (.listeners id topic) members := by
  obtain ⟨messages, -, -, hsignals⟩ := h.pushed
  obtain ⟨channel, found, -⟩ := Option.bind_eq_some_iff.mp hmembers
  constructor
  · rw [hturns, if_neg Bool.false_ne_true, served_listeners found]
    apply Signal.copiesOf_eq_nil
    intro client payload hmem
    rw [hsignals] at hmem
    obtain ⟨entry, -, hentry⟩ := List.mem_flatMap.mp hmem
    unfold acceptingSignals at hentry
    split at hentry
    · cases hentry
    · exact Queue.not_topic_mem_acceptingSignals hentry
  · rw [hturns, if_neg Bool.false_ne_true, ← hmembers]
    unfold roster?
    dsimp only
    rw [h.channels]

end TakesIn

theorem roster?_turned {route : Route} {key other : String}
    {members : List QueueId} (hmembers : route.roster? other = some members) :
    (route.turned key).roster? other =
      some (if other = key then MemberSet.rotateItems members
        else members) := by
  obtain ⟨hturning, rfl⟩ := Route.roster?_eq_some_iff.mp hmembers
  rw [Route.turned, if_pos hturning, Route.roster?_eq_some_iff]
  exact ⟨hturning, MemberIndex.members_rotate _ _ _⟩

theorem recipients_of_roster {route : Route} {key : String}
    {members : List QueueId} {set : MemberSet QueueId}
    (hmembers : route.roster? key = some members)
    (bound : route.bindings.group? key = some set) :
    route.recipients set = members.getLast?.toList := by
  obtain ⟨hturning, rfl⟩ := Route.roster?_eq_some_iff.mp hmembers
  rw [Route.recipients, if_pos hturning, MemberIndex.members_eq, bound]
  show _ = set.items.getLast?.toList
  rw [← MemberSet.first?_rotate]
  unfold MemberSet.first?
  cases set.rotate.items <;> rfl

theorem routes_push (broker : Broker) (id : QueueId) (payload : Payload)
    (timeToLive : UInt32) :
    (broker.push id payload timeToLive).state.routes = broker.routes := by
  unfold push
  split <;> rfl

theorem eq_nil_of_unbound {route : Route} {key : String}
    {members : List QueueId} (hmembers : route.roster? key = some members)
    (hunbound : route.bindings.group? key = none) : members = [] := by
  obtain ⟨-, rfl⟩ := Route.roster?_eq_some_iff.mp hmembers
  exact MemberIndex.members_eq_nil_iff.mpr hunbound

theorem roster?_publishRoute (reached : Reached stamps broker)
    {id other : RouteId} {key under : String} {members : List QueueId}
    (hmembers : broker.roster? (.bindings id key) = some members)
    (payload : Payload) (timeToLive : UInt32) :
    (broker.publishRoute other under payload timeToLive).state.roster?
        (.bindings id key) =
      some (if other = id ∧ under = key then MemberSet.rotateItems members
        else members) := by
  obtain ⟨route, found, hroute⟩ := Option.bind_eq_some_iff.mp hmembers
  rcases broker.bound_or_unbound other under with
    ⟨target, set, hother, bound⟩ | hunbound
  · have hturn : broker.routes.put (target.turned under) =
        broker.routes.update other fun target => target.turned under :=
      reached.consistent.numbered.routes.put_eq_update
        (fun target => target.turned under) hother (target.id_turned under)
    unfold roster?
    dsimp only
    rw [(reached.publishRoute_of_bound hother bound payload timeToLive).2,
      hturn, Registry.find?_update]
    by_cases hid : id = other
    · rw [if_pos hid, found]
      refine (roster?_turned hroute).trans ?_
      simp only [hid, true_and, eq_comm]
    · rw [if_neg hid, if_neg fun h => hid h.1.symm]
      exact hmembers
  · rw [(publishRoute_of_unbound hunbound payload timeToLive).2.1, hmembers]
    split
    · rename_i hsame
      obtain ⟨rfl, rfl⟩ := hsame
      rw [eq_nil_of_unbound hroute (hunbound route found)]
      rfl
    · rfl

theorem targets_of_roster {id : RouteId} {key : String}
    {members : List QueueId}
    (hmembers : broker.roster? (.bindings id key) = some members)
    (payload : Payload) (timeToLive : UInt32) :
    broker.targets (.publishRoute id key payload timeToLive) =
      members.getLast?.toList := by
  obtain ⟨route, found, hroute⟩ := Option.bind_eq_some_iff.mp hmembers
  rcases broker.bound_or_unbound id key with
    ⟨target, set, hother, bound⟩ | hunbound
  · cases found.symm.trans hother
    rw [targets_of_bound found bound, recipients_of_roster hroute bound]
  · rw [(publishRoute_of_unbound hunbound payload timeToLive).1,
      eq_nil_of_unbound hroute (hunbound route found)]
    rfl

theorem Reached.serves_publishRoute (reached : Reached stamps broker)
    (id : RouteId) (key : String) (payload : Payload) (timeToLive : UInt32)
    {wheel : Wheel} {members : List wheel.Member}
    (hmembers : broker.roster? wheel = some members) :
    broker.Serves (.publishRoute id key payload timeToLive) wheel members := by
  have htakes : broker.TakesIn _
      (broker.perform (.publishRoute id key payload timeToLive)) :=
    (takesIn_publishRoute reached id key payload timeToLive).reply _
  cases wheel with
  | subscribers queue => exact htakes.serves_subscribers reached hmembers
  | listeners channel topic => exact htakes.serves_listeners hmembers rfl
  | bindings other under =>
      have hturns : broker.turns (.publishRoute id key payload timeToLive)
          (.bindings other under) = decide (id = other ∧ key = under) := rfl
      constructor
      · rw [hturns]
        simp only [served, decide_eq_true_eq]
        split
        · rename_i hsame
          obtain ⟨rfl, rfl⟩ := hsame
          exact targets_of_roster hmembers payload timeToLive
        · rfl
      · rw [hturns]
        simp only [decide_eq_true_eq]
        exact roster?_publishRoute reached hmembers payload timeToLive

theorem Reached.serves_push (reached : Reached stamps broker) (id : QueueId)
    (payload : Payload) (timeToLive : UInt32) {wheel : Wheel}
    {members : List wheel.Member}
    (hmembers : broker.roster? wheel = some members) :
    broker.Serves (.push id payload timeToLive) wheel members := by
  have htakes : broker.TakesIn _
      (broker.perform (.push id payload timeToLive)) :=
    (takesIn_push reached id payload timeToLive).reply _
  cases wheel with
  | subscribers queue => exact htakes.serves_subscribers reached hmembers
  | listeners channel topic => exact htakes.serves_listeners hmembers rfl
  | bindings route key =>
      refine ⟨rfl, ?_⟩
      refine Eq.trans ?_ hmembers
      exact congrArg (fun routes : Registry RouteId Route =>
          (routes.find? route).bind (Route.roster? key))
        (broker.routes_push id payload timeToLive)

end Broker

end MessageBroker
