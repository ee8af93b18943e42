import MessageBroker.Proofs.Broker.Publishing
import MessageBroker.Proofs.Broker.Rosters

/-! Turns of a set whose members are served one by one: when a command takes
one, and whom it serves. A publish to a topic takes a turn of its subscribers
when it is accepted. -/

namespace MessageBroker

namespace Signal

/-- Who is handed a message of the queue. -/
def messagesOf (queue : String) (signals : List Signal) : List ClientId :=
  signals.filterMap fun
    | .deliver client (.message name _ _) =>
        if name = queue then some client else none
    | _ => none

/-- Who is handed what is published to the topic of the channel, as a
subscriber of that topic. -/
def copiesOf (channel topic : String) (signals : List Signal) :
    List ClientId :=
  signals.filterMap fun
    | .deliver client (.topic name about _) =>
        if name = channel ∧ about = topic then some client else none
    | _ => none

variable {signals : List Signal}

@[simp] theorem messagesOf_append (queue : String)
    (first second : List Signal) :
    messagesOf queue (first ++ second) =
      messagesOf queue first ++ messagesOf queue second :=
  List.filterMap_append

@[simp] theorem copiesOf_append (channel topic : String)
    (first second : List Signal) :
    copiesOf channel topic (first ++ second) =
      copiesOf channel topic first ++ copiesOf channel topic second :=
  List.filterMap_append

theorem messagesOf_eq_nil {queue : String}
    (h : ∀ client tag payload,
      .deliver client (.message queue tag payload) ∉ signals) :
    messagesOf queue signals = [] := by
  refine List.filterMap_eq_nil_iff.mpr fun signal hmem => ?_
  split
  · refine if_neg ?_
    rintro rfl
    exact h _ _ _ hmem
  · rfl

theorem copiesOf_eq_nil {channel topic : String}
    (h : ∀ client payload,
      .deliver client (.topic channel topic payload) ∉ signals) :
    copiesOf channel topic signals = [] := by
  refine List.filterMap_eq_nil_iff.mpr fun signal hmem => ?_
  split
  · refine if_neg ?_
    rintro ⟨rfl, rfl⟩
    exact h _ _ hmem
  · rfl

end Signal

theorem Route.id_turned (route : Route) (key : String) :
    (route.turned key).id = route.id := by
  unfold turned
  split <;> rfl

namespace Broker

/-- The queues that take in what a command pushes. -/
def accepting (broker : Broker) (command : Command) : List QueueId :=
  match command with
  | .push _ payload timeToLive | .publishRoute _ _ payload timeToLive =>
      (broker.targets command).filter (broker.accepts payload timeToLive)
  | _ => []

/-- Whether a command takes a turn: the queue accepts its push, it publishes
under the key, whatever becomes of that, or its publish to the topic is
accepted. -/
def turns (broker : Broker) (command : Command) : Wheel → Bool
  | .subscribers id => id ∈ broker.accepting command
  | .bindings id key =>
      match command with
      | .publishRoute route under _ _ => route = id ∧ under = key
      | _ => false
  | .listeners id topic =>
      match command with
      | .publishChannel channel about payload =>
          (channel = id ∧ about = topic) &&
            (broker.publishChannel channel about payload).result.isOk
      | _ => false

/-- The members that a command serves: who is handed the message of the queue,
the queues that a publish under the key goes to, or who is handed what is
published to the topic. -/
def served (broker : Broker) (command : Command) :
    (wheel : Wheel) → List wheel.Member
  | .subscribers id =>
      match broker.queues.find? id with
      | none => []
      | some queue =>
          Signal.messagesOf queue.name (broker.perform command).signals
  | .bindings id key =>
      match command with
      | .publishRoute route under _ _ =>
          if route = id ∧ under = key then broker.targets command else []
      | _ => []
  | .listeners id topic =>
      match broker.channels.find? id with
      | none => []
      | some channel =>
          Signal.copiesOf channel.name topic (broker.perform command).signals

/-- The last member is served, and goes to the front. -/
structure Serves (broker : Broker) (command : Command) (wheel : Wheel)
    (members : List wheel.Member) : Prop where
  served : broker.served command wheel =
    if broker.turns command wheel then members.getLast?.toList else []
  roster : (broker.perform command).state.roster? wheel =
    some (if broker.turns command wheel then MemberSet.rotateItems members
      else members)

end Broker

namespace Channel

variable {channel : Channel} {topic : String} {members : List ClientId}

theorem roster?_advanced (hmembers : channel.roster? topic = some members)
    (about : String) :
    (channel.advanced about).roster? topic =
      some (if topic = about then MemberSet.rotateItems members
        else members) := by
  obtain ⟨hturning, rfl⟩ := roster?_eq_some_iff.mp hmembers
  rw [advanced, if_pos hturning, roster?_eq_some_iff]
  exact ⟨hturning, MemberIndex.members_rotate _ _ _⟩

theorem id_publish (channel : Channel) (about : String) (payload : Payload) :
    (channel.publish about payload).state.id = channel.id := by
  unfold publish advanced
  split
  · rfl
  · dsimp only
    split <;> rfl

theorem roster?_publish (hmembers : channel.roster? topic = some members)
    (about : String) (payload : Payload) :
    (channel.publish about payload).state.roster? topic =
      some (if (channel.publish about payload).result.isOk = true ∧
          about = topic then MemberSet.rotateItems members else members) := by
  unfold publish
  split
  · simpa [Except.isOk, Except.toBool] using hmembers
  · refine (roster?_advanced hmembers about).trans ?_
    simp [Except.isOk, Except.toBool, eq_comm]

theorem topicReceivers_of_roster
    (hmembers : channel.roster? topic = some members) :
    channel.topicReceivers topic = members.getLast?.toList := by
  obtain ⟨hturning, rfl⟩ := roster?_eq_some_iff.mp hmembers
  rw [topicReceivers, MemberIndex.members_eq]
  cases channel.topics.group? topic with
  | none => rfl
  | some set =>
      dsimp only
      rw [if_pos hturning, MemberSet.first?_rotate]
      rfl

theorem copiesOf_publish (channel : Channel) (about : String)
    (payload : Payload) (name topic : String) :
    Signal.copiesOf name topic (channel.publish about payload).signals =
      if (channel.publish about payload).result.isOk = true ∧
          channel.name = name ∧ about = topic
      then channel.topicReceivers about else [] := by
  unfold publish
  split
  · rfl
  · have hpatterns : Signal.copiesOf name topic
        (channel.patternSignals about payload) = [] := by
      apply Signal.copiesOf_eq_nil
      intro client payload hmem
      obtain ⟨_, -, hsignal⟩ := List.mem_flatMap.mp hmem
      dsimp only at hsignal
      split at hsignal
      · obtain ⟨_, -, hcopy⟩ := List.mem_map.mp hsignal
        cases hcopy
      · cases hsignal
    dsimp only
    rw [Signal.copiesOf_append, hpatterns, List.append_nil]
    unfold topicSignals Signal.copiesOf
    rw [List.filterMap_map]
    by_cases hnamed : channel.name = name ∧ about = topic
    · simp [hnamed, Except.isOk, Except.toBool]
    · simp [hnamed]

end Channel

namespace Broker

variable {broker : Broker} {stamps : Nat}

theorem served_subscribers {id : QueueId} {queue : Queue}
    (found : broker.queues.find? id = some queue) (command : Command) :
    broker.served command (.subscribers id) =
      Signal.messagesOf queue.name (broker.perform command).signals := by
  simp only [served, found]

theorem served_listeners {id : ChannelId} {channel : Channel}
    (found : broker.channels.find? id = some channel) (command : Command)
    (topic : String) :
    broker.served command (.listeners id topic) =
      Signal.copiesOf channel.name topic (broker.perform command).signals := by
  simp only [served, found]

theorem turns_publishChannel {id other : ChannelId} {channel : Channel}
    (found : broker.channels.find? other = some channel)
    (topic about : String) (payload : Payload) :
    broker.turns (.publishChannel other about payload) (.listeners id topic) =
      decide ((channel.publish about payload).result.isOk = true ∧
        other = id ∧ about = topic) := by
  have haccepted : (broker.publishChannel other about payload).result.isOk =
      (channel.publish about payload).result.isOk := by
    unfold publishChannel
    rw [found]
    dsimp only [Outcome.lift]
    cases (channel.publish about payload).result <;> rfl
  simp only [turns, haccepted, Bool.decide_and, Bool.decide_eq_true]
  exact Bool.and_comm _ _

theorem publishChannel_of_absent {id : ChannelId}
    (absent : broker.channels.find? id = none) (topic : String)
    (payload : Payload) :
    broker.publishChannel id topic payload =
      .refused broker (.channelNotFound id) := by
  unfold publishChannel
  rw [absent]

theorem roster?_publishChannel (hnumbered : broker.Numbered)
    {id other : ChannelId} {topic about : String} {payload : Payload}
    {members : List ClientId}
    (hmembers : broker.roster? (.listeners id topic) = some members) :
    (broker.publishChannel other about payload).state.roster?
        (.listeners id topic) =
      some (if broker.turns (.publishChannel other about payload)
          (.listeners id topic) then MemberSet.rotateItems members
        else members) := by
  cases hother : broker.channels.find? other with
  | none =>
      simp only [turns, publishChannel_of_absent hother]
      simpa [Except.isOk, Except.toBool] using hmembers
  | some target =>
      obtain ⟨channel, found, hchannel⟩ := Option.bind_eq_some_iff.mp hmembers
      rw [turns_publishChannel hother]
      simp only [decide_eq_true_eq]
      have hchannels :
          (broker.publishChannel other about payload).state.channels =
            broker.channels.put (target.publish about payload).state := by
        unfold publishChannel
        rw [hother]
        rfl
      have hput := hnumbered.channels.put_eq_update
        (fun _ => (target.publish about payload).state) hother
        (target.id_publish about payload)
      unfold roster?
      dsimp only
      rw [hchannels, hput]
      by_cases hsame : id = other
      · subst hsame
        cases hother.symm.trans found
        rw [Registry.find?_update_self found]
        simp only [true_and]
        exact Channel.roster?_publish hchannel about payload
      · rw [Registry.find?_update_ne _ hsame, if_neg fun h => hsame h.2.1.symm]
        exact hmembers

theorem served_publishChannel (reached : Reached stamps broker)
    {id other : ChannelId} {topic about : String} {payload : Payload}
    {members : List ClientId}
    (hmembers : broker.roster? (.listeners id topic) = some members) :
    broker.served (.publishChannel other about payload) (.listeners id topic) =
      if broker.turns (.publishChannel other about payload)
        (.listeners id topic) then members.getLast?.toList else [] := by
  obtain ⟨channel, found, hchannel⟩ := Option.bind_eq_some_iff.mp hmembers
  rw [served_listeners found]
  show Signal.copiesOf _ _
    (broker.publishChannel other about payload).signals = _
  cases hother : broker.channels.find? other with
  | none =>
      simp only [turns, publishChannel_of_absent hother]
      simp [Except.isOk, Except.toBool, Signal.copiesOf]
  | some target =>
      have hsignals : (broker.publishChannel other about payload).signals =
          (target.publish about payload).signals := by
        unfold publishChannel
        rw [hother]
        rfl
      rw [turns_publishChannel hother, hsignals, Channel.copiesOf_publish]
      simp only [decide_eq_true_eq]
      by_cases hsame : other = id
      · subst hsame
        cases hother.symm.trans found
        simp only [true_and]
        split
        · rename_i haccepted
          rw [haccepted.2]
          exact Channel.topicReceivers_of_roster hchannel
        · rfl
      · have hnames : target.name ≠ channel.name := fun hname =>
          hsame (reached.listed.channels.id_unique found hother hname)
        rw [if_neg fun h => hnames h.2.1, if_neg fun h => hsame h.2.1]

theorem Reached.serves_publishChannel (reached : Reached stamps broker)
    (id : ChannelId) (topic : String) (payload : Payload) {wheel : Wheel}
    {members : List wheel.Member}
    (hmembers : broker.roster? wheel = some members) :
    broker.Serves (.publishChannel id topic payload) wheel members := by
  have hothers : (broker.publishChannel id topic payload).state.queues =
        broker.queues ∧
      (broker.publishChannel id topic payload).state.routes =
        broker.routes := by
    unfold publishChannel
    split <;> exact ⟨rfl, rfl⟩
  cases wheel with
  | subscribers queue =>
      obtain ⟨entry, found, -⟩ := Option.bind_eq_some_iff.mp hmembers
      refine ⟨?_, Eq.trans ?_ hmembers⟩
      · rw [served_subscribers found]
        apply Signal.messagesOf_eq_nil
        intro client tag handed hmem
        have hmem : .deliver client (.message entry.name tag handed) ∈
            (broker.publishChannel id topic payload).signals := hmem
        unfold publishChannel at hmem
        split at hmem
        · cases hmem
        · cases Channel.handsOut_publish hmem
      · exact congrArg (fun queues : Registry QueueId Queue =>
          (queues.find? queue).bind Queue.roster?) hothers.1
  | bindings route key =>
      refine ⟨rfl, Eq.trans ?_ hmembers⟩
      exact congrArg (fun routes : Registry RouteId Route =>
        (routes.find? route).bind (Route.roster? key)) hothers.2
  | listeners channel about =>
      exact ⟨served_publishChannel reached hmembers,
        roster?_publishChannel reached.consistent.numbered hmembers⟩

end Broker

end MessageBroker
