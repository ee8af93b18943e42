import MessageBroker.Channel
import MessageBroker.Proofs.Collection.MemberIndex

/-! What a channel publishes, from its first subscription on. The channel is
compared with a ledger that has the subscriptions in plain lists. -/

namespace MessageBroker

namespace Channel

inductive Call where
  | subscribeTopic (client : ClientId) (topic : String)
  | subscribePattern (client : ClientId) (pattern : String)
  | unsubscribeTopic (client : ClientId) (topic : String)
  | unsubscribePattern (client : ClientId) (pattern : String)
  | publish (topic : String) (payload : Payload)

def take (channel : Channel) : Call → Channel
  | .subscribeTopic client topic => channel.subscribeTopic client topic
  | .subscribePattern client pattern => channel.subscribePattern client pattern
  | .unsubscribeTopic client topic =>
      match channel.unsubscribeTopic client topic with
      | .ok left => left
      | .error _ => channel
  | .unsubscribePattern client pattern =>
      match channel.unsubscribePattern client pattern with
      | .ok left => left
      | .error _ => channel
  | .publish topic payload => (channel.publish topic payload).state

def run (channel : Channel) (calls : List Call) : Channel :=
  calls.foldl take channel

/-- Subscribers in their order: those of every topic, and those of the patterns
that have any. -/
structure Ledger where
  topics : String → List ClientId
  patterns : List (String × List ClientId)

namespace Ledger

def empty : Ledger where
  topics := fun _ => []
  patterns := []

def join (clients : List ClientId) (client : ClientId) : List ClientId :=
  if client ∈ clients then clients else clients ++ [client]

def changeTopic (ledger : Ledger) (topic : String)
    (change : List ClientId → List ClientId) : Ledger := {
  ledger with
  topics := fun other =>
    if other = topic then change (ledger.topics other) else ledger.topics other
}

def changePattern (ledger : Ledger) (pattern : String)
    (change : List ClientId → List ClientId) : List (String × List ClientId) :=
  ledger.patterns.map fun group =>
    if group.1 = pattern then (pattern, change group.2) else group

/-- The ledger after a call to a channel with these flags and this limit. Only a
payload within the limit makes a topic's turn pass on. -/
def enter (flags : ChannelFlags) (limit : UInt32) (ledger : Ledger) :
    Call → Ledger
  | .subscribeTopic client topic =>
      ledger.changeTopic topic fun clients => join clients client
  | .unsubscribeTopic client topic =>
      ledger.changeTopic topic fun clients => clients.filter (· != client)
  | .subscribePattern client pattern => {
      ledger with
      patterns :=
        if pattern ∈ ledger.patterns.map Prod.fst then
          ledger.changePattern pattern fun clients => join clients client
        else ledger.patterns ++ [(pattern, [client])]
    }
  | .unsubscribePattern client pattern => {
      ledger with
      patterns :=
        (ledger.changePattern pattern fun clients =>
          clients.filter (· != client)).filter fun group => !group.2.isEmpty
    }
  | .publish topic payload =>
      if flags.roundRobin = true ∧ payload.size ≤ limit.toNat then
        ledger.changeTopic topic MemberSet.rotateItems
      else ledger

/-- Who gets a message on a topic because of the topic: all subscribers, or the
last one of them if they are served in turn. -/
def receivers (ledger : Ledger) (roundRobin : Bool) (topic : String) :
    List ClientId :=
  if roundRobin then (ledger.topics topic).getLast?.toList
  else ledger.topics topic

/-- Who gets it because of a pattern, and because of which. -/
def matching (ledger : Ledger) (topic : String) : List (String × ClientId) :=
  ledger.patterns.flatMap fun group =>
    if Glob.isMatch group.1 topic then
      group.2.map fun client => (group.1, client)
    else []

/-- Everything that a message on a topic is handed out as, with the receivers:
first because of the topic, then pattern by pattern. -/
def handed (ledger : Ledger) (roundRobin : Bool) (name topic : String)
    (payload : Payload) : List (ClientId × Delivery) :=
  ((ledger.receivers roundRobin topic).map fun client =>
    (client, .topic name topic payload)) ++
  (ledger.matching topic).map fun entry =>
    (entry.2, .pattern name topic entry.1 payload)

/-- The patterns through which a client gets it. -/
def patternsOf (ledger : Ledger) (topic : String) (client : ClientId) :
    List String :=
  (ledger.patterns.filter fun group =>
    Glob.isMatch group.1 topic && group.2.contains client).map Prod.fst

end Ledger

def ledger (channel : Channel) : Ledger where
  topics := channel.topics.members
  patterns := channel.patterns.toLists

theorem ledger_create (id : ChannelId) (name : String) (flags : ChannelFlags)
    (limit : UInt32) : (create id name flags limit).ledger = .empty := rfl

theorem take_unsubscribeTopic (channel : Channel) (client : ClientId)
    (topic : String) :
    channel.take (.unsubscribeTopic client topic) =
      { channel with topics := channel.topics.unlink topic client } := by
  cases hlisted : channel.hasTopic client topic with
  | true => simp only [take, unsubscribeTopic, if_pos hlisted]
  | false =>
      simp only [take, unsubscribeTopic, if_neg (ne_true_of_eq_false hlisted),
        MemberIndex.unlink_of_not_contains hlisted]

theorem take_unsubscribePattern (channel : Channel) (client : ClientId)
    (pattern : String) :
    channel.take (.unsubscribePattern client pattern) =
      { channel with patterns := channel.patterns.unlink pattern client } := by
  cases hlisted : channel.hasPattern client pattern with
  | true => simp only [take, unsubscribePattern, if_pos hlisted]
  | false =>
      simp only [take, unsubscribePattern, if_neg (ne_true_of_eq_false hlisted),
        MemberIndex.unlink_of_not_contains hlisted]

theorem publish_of_tooLarge {channel : Channel} {payload : Payload}
    (hlarge : channel.maxMessageSize.toNat < payload.size) (topic : String) :
    channel.publish topic payload =
      .refused channel (.tooLarge payload.size channel.maxMessageSize) :=
  if_pos hlarge

theorem publish_of_fits {channel : Channel} {payload : Payload}
    (hfits : payload.size ≤ channel.maxMessageSize.toNat) (topic : String) :
    channel.publish topic payload = {
      state := channel.advanced topic
      result := .ok (channel.topicSignals topic payload ++
        channel.patternSignals topic payload).length
      signals := channel.topicSignals topic payload ++
        channel.patternSignals topic payload } :=
  if_neg (Nat.not_lt.mpr hfits)

theorem flags_take (channel : Channel) (call : Call) :
    (channel.take call).flags = channel.flags ∧
      (channel.take call).maxMessageSize = channel.maxMessageSize ∧
      (channel.take call).name = channel.name := by
  cases call with
  | subscribeTopic | subscribePattern => exact ⟨rfl, rfl, rfl⟩
  | unsubscribeTopic client topic =>
      rw [take_unsubscribeTopic]
      exact ⟨rfl, rfl, rfl⟩
  | unsubscribePattern client pattern =>
      rw [take_unsubscribePattern]
      exact ⟨rfl, rfl, rfl⟩
  | publish topic payload =>
      have hstate : channel.take (.publish topic payload) = channel ∨
          channel.take (.publish topic payload) = channel.advanced topic := by
        unfold take publish
        dsimp only
        split
        · exact .inl rfl
        · exact .inr rfl
      rcases hstate with hstate | hstate <;> rw [hstate]
      · exact ⟨rfl, rfl, rfl⟩
      · unfold advanced
        split <;> exact ⟨rfl, rfl, rfl⟩

theorem ledger_take (channel : Channel) (call : Call) :
    (channel.take call).ledger =
      channel.ledger.enter channel.flags channel.maxMessageSize call := by
  cases call with
  | subscribeTopic client topic =>
      refine congrArg (Ledger.mk · _) (funext fun other => ?_)
      refine (MemberIndex.members_link _ _ _ _).trans ?_
      split
      · rename_i hsame
        rw [hsame]
        rfl
      · rfl
  | unsubscribeTopic client topic =>
      rw [take_unsubscribeTopic]
      exact congrArg (Ledger.mk · _)
        (funext fun other => MemberIndex.members_unlink _ _ _ _)
  | subscribePattern client pattern =>
      refine congrArg (Ledger.mk _) ?_
      split
      · rename_i hlisted
        exact MemberIndex.toLists_link_present hlisted client
      · rename_i habsent
        exact MemberIndex.toLists_link_absent habsent client
  | unsubscribePattern client pattern =>
      rw [take_unsubscribePattern]
      exact congrArg (Ledger.mk _) (MemberIndex.toLists_unlink _ _ _)
  | publish topic payload =>
      unfold take Ledger.enter
      dsimp only
      by_cases hfits : payload.size ≤ channel.maxMessageSize.toNat
      · rw [publish_of_fits hfits]
        unfold advanced
        cases channel.flags.roundRobin with
        | false => simp
        | true =>
            rw [if_pos rfl, if_pos ⟨rfl, hfits⟩]
            exact congrArg (Ledger.mk · _)
              (funext fun other => MemberIndex.members_rotate _ _ _)
      · rw [publish_of_tooLarge (Nat.not_le.mp hfits),
          if_neg fun hboth => hfits hboth.2]
        rfl

theorem ledger_run (channel : Channel) (calls : List Call) :
    (channel.run calls).ledger =
        calls.foldl (Ledger.enter channel.flags channel.maxMessageSize)
          channel.ledger ∧
      (channel.run calls).flags = channel.flags ∧
      (channel.run calls).maxMessageSize = channel.maxMessageSize ∧
      (channel.run calls).name = channel.name := by
  induction calls generalizing channel with
  | nil => exact ⟨rfl, rfl, rfl, rfl⟩
  | cons call rest ih =>
      obtain ⟨hflags, hlimit, hname⟩ := channel.flags_take call
      have hrest := ih (channel.take call)
      rw [ledger_take, hflags, hlimit, hname] at hrest
      exact hrest

theorem topicReceivers_eq (channel : Channel) (topic : String) :
    channel.topicReceivers topic =
      channel.ledger.receivers channel.flags.roundRobin topic := by
  have hmembers := channel.topics.members_eq topic
  unfold topicReceivers Ledger.receivers
  show _ = if _ then (channel.topics.members topic).getLast?.toList
    else channel.topics.members topic
  rw [hmembers]
  cases channel.topics.group? topic with
  | none => exact (ite_self []).symm
  | some clients =>
      dsimp only [Option.getD_some]
      rw [MemberSet.first?_rotate]

theorem patternSignals_eq (channel : Channel) (topic : String)
    (payload : Payload) :
    channel.patternSignals topic payload =
      (channel.ledger.matching topic).map fun entry =>
        .deliver entry.2 (.pattern channel.name topic entry.1 payload) := by
  unfold patternSignals Ledger.matching
  show _ = List.map _ (channel.patterns.toLists.flatMap _)
  unfold MemberIndex.toLists
  rw [List.map_flatMap, List.flatMap_map]
  refine List.flatMap_congr fun entry _ => ?_
  dsimp only
  split
  · rw [List.map_map]
    rfl
  · rfl

theorem nodup_receivers (channel : Channel) (topic : String) :
    (channel.ledger.receivers channel.flags.roundRobin topic).Nodup := by
  unfold Ledger.receivers
  split
  · cases (channel.ledger.topics topic).getLast? with
    | none => exact List.nodup_nil
    | some client => exact List.nodup_singleton client
  · exact channel.topics.nodup_members topic

theorem count_matching (channel : Channel) (topic : String)
    (client : ClientId) :
    (channel.ledger.matching topic).countP (fun entry => entry.2 = client) =
      (channel.ledger.patternsOf topic client).length := by
  have hnodup : ∀ group ∈ channel.ledger.patterns, group.2.Nodup := by
    intro group hgroup
    obtain ⟨set, -, hitems⟩ := MemberIndex.mem_toLists.mp hgroup
    rw [← hitems]
    exact set.nodup_items
  unfold Ledger.matching Ledger.patternsOf
  rw [List.length_map, ← List.countP_eq_length_filter]
  generalize channel.ledger.patterns = patterns at hnodup
  induction patterns with
  | nil => rfl
  | cons group rest ih =>
      obtain ⟨hgroup, hrest⟩ := List.forall_mem_cons.mp hnodup
      have hcount : (group.2.map fun client => (group.1, client)).countP
          (fun entry => entry.2 = client) =
            if group.2.contains client then 1 else 0 := by
        rw [List.countP_map]
        simp only [List.contains_iff_mem]
        exact hgroup.count
      rw [List.flatMap_cons, List.countP_append, List.countP_cons, ih hrest,
        Nat.add_comm]
      congr 1
      cases Glob.isMatch group.1 topic with
      | false => rfl
      | true => exact hcount

/-- All that a publish within the limit does to a channel with such a ledger. -/
structure PublishesExactly (channel : Channel) (ledger : Ledger)
    (topic : String) (payload : Payload) : Prop where
  handed : (channel.publish topic payload).signals =
    (ledger.handed channel.flags.roundRobin channel.name topic payload).map
      fun entry => .deliver entry.1 entry.2
  counted : (channel.publish topic payload).result =
    .ok (ledger.handed channel.flags.roundRobin channel.name topic
      payload).length
  /-- Nobody gets two copies because of the topic, and everyone gets one because
  of each pattern that matches. -/
  once : (ledger.receivers channel.flags.roundRobin topic).Nodup
  copies : ∀ client,
    (ledger.handed channel.flags.roundRobin channel.name topic payload).countP
        (fun entry => entry.1 = client) =
      (ledger.receivers channel.flags.roundRobin topic).count client +
        (ledger.patternsOf topic client).length
  /-- Nothing but the order of the topic's subscribers changes, and that only if
  they are served in turn. -/
  turned : ∃ topics, (channel.publish topic payload).state =
      { channel with topics := topics } ∧
    topics.toLists = channel.topics.toLists.map fun group =>
      if channel.flags.roundRobin = true ∧ group.1 = topic then
        (topic, MemberSet.rotateItems group.2)
      else group
  /-- Everyone stays subscribed to what they are. -/
  kept : ∀ client other,
    (channel.publish topic payload).state.hasTopic client other =
      channel.hasTopic client other

theorem publishesExactly {channel : Channel} {payload : Payload}
    (hfits : payload.size ≤ channel.maxMessageSize.toNat) (topic : String) :
    channel.PublishesExactly channel.ledger topic payload := by
  have hpublish := publish_of_fits hfits topic
  have hsignals : channel.topicSignals topic payload ++
      channel.patternSignals topic payload =
        (channel.ledger.handed channel.flags.roundRobin channel.name topic
          payload).map fun entry => .deliver entry.1 entry.2 := by
    rw [topicSignals, topicReceivers_eq, patternSignals_eq]
    unfold Ledger.handed
    rw [List.map_append, List.map_map, List.map_map]
    rfl
  rw [hsignals, List.length_map] at hpublish
  refine {
    handed := congrArg Outcome.signals hpublish
    counted := congrArg Outcome.result hpublish
    once := channel.nodup_receivers topic
    copies := ?copies
    turned := ?turned
    kept := ?kept
  }
  case copies =>
    intro client
    unfold Ledger.handed
    rw [List.countP_append, List.countP_map, List.countP_map,
      ← channel.count_matching topic client]
    rfl
  case turned =>
    rw [hpublish]
    unfold advanced
    dsimp only
    cases channel.flags.roundRobin with
    | false => exact ⟨channel.topics, rfl, by simp⟩
    | true =>
        refine ⟨channel.topics.rotate topic, rfl, ?_⟩
        rw [MemberIndex.toLists_rotate]
        simp
  case kept =>
    intro client other
    rw [hpublish]
    unfold advanced hasTopic
    dsimp only
    split
    · exact MemberIndex.contains_rotate
    · rfl

/-- Whatever has been asked of a channel since it was created, a message that is
too large leaves no trace, and any other goes to those whom the ledger names. -/
theorem publish_exact (id : ChannelId) (name : String) (flags : ChannelFlags)
    (limit : UInt32) (calls : List Call) (topic : String) (payload : Payload) :
    let channel := (create id name flags limit).run calls
    if limit.toNat < payload.size then
      channel.publish topic payload =
        .refused channel (.tooLarge payload.size limit)
    else channel.PublishesExactly (calls.foldl (Ledger.enter flags limit) .empty)
      topic payload := by
  intro channel
  obtain ⟨hledger, -, hlimit, -⟩ := (create id name flags limit).ledger_run calls
  rw [ledger_create] at hledger
  change channel.ledger = calls.foldl (Ledger.enter flags limit) .empty at hledger
  change channel.maxMessageSize = limit at hlimit
  rw [← hledger, ← hlimit]
  split
  · rename_i hlarge
    exact publish_of_tooLarge hlarge topic
  · rename_i hfits
    exact publishesExactly (Nat.not_lt.mp hfits) topic

/-- The client whose turn it is also holds two patterns that match. -/
example :
    (((create ⟨1⟩ "news" ⟨false, true⟩ 64).run [
      .subscribeTopic ⟨7⟩ "a", .subscribeTopic ⟨8⟩ "a",
      .subscribePattern ⟨8⟩ "*", .subscribePattern ⟨7⟩ "b",
      .subscribePattern ⟨8⟩ "?"]).publish "a" ⟨[1], 1⟩).signals = [
      .deliver ⟨8⟩ (.topic "news" "a" ⟨[1], 1⟩),
      .deliver ⟨8⟩ (.pattern "news" "a" "*" ⟨[1], 1⟩),
      .deliver ⟨8⟩ (.pattern "news" "a" "?" ⟨[1], 1⟩)] := by
  cbv

end Channel

end MessageBroker
