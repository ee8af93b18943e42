import MessageBroker.Proofs.Broker.Reached
import MessageBroker.Proofs.Broker.Settling

/-! What decides whether an entity goes by itself: whether it wishes to, and the
ties that it has. Commands that withdraw nothing leave every tie in place. -/

namespace MessageBroker

inductive Entity where
  | queue (id : QueueId)
  | route (id : RouteId)
  | channel (id : ChannelId)
  deriving DecidableEq

def Entity.number : Entity → Nat
  | .queue id => id.number
  | .route id => id.number
  | .channel id => id.number

/-- A declaration of a queue, a binding of a route, or a subscription to a
channel. -/
inductive Tie where
  | declared (client : ClientId)
  | bound (key : String) (queue : QueueId)
  | topic (topic : String) (client : ClientId)
  | pattern (pattern : String) (client : ClientId)
  deriving DecidableEq

def Tie.client? : Tie → Option ClientId
  | .declared client => some client
  | .bound _ _ => none
  | .topic _ client => some client
  | .pattern _ client => some client

structure Standing where
  autoDelete : Bool
  ties : List Tie
  deriving DecidableEq

def Queue.standing (queue : Queue) : Standing where
  autoDelete := queue.settings.flags.autoDelete
  ties := queue.declared.items.map .declared

def Route.standing (route : Route) : Standing where
  autoDelete := route.flags.autoDelete
  ties := route.bindings.pairs.map fun binding =>
    .bound binding.1 binding.2

def Channel.standing (channel : Channel) : Standing where
  autoDelete := channel.flags.autoDelete
  ties :=
    channel.topics.pairs.map (fun pair => .topic pair.1 pair.2) ++
      channel.patterns.pairs.map fun pair => .pattern pair.1 pair.2

def Broker.standing? (broker : Broker) : Entity → Option Standing
  | .queue id => (broker.queues.find? id).map Queue.standing
  | .route id => (broker.routes.find? id).map Route.standing
  | .channel id => (broker.channels.find? id).map Channel.standing

/-- The same wish, and no tie less. -/
structure Standing.Within (before now : Standing) : Prop where
  autoDelete : now.autoDelete = before.autoDelete
  ties : before.ties ⊆ now.ties

theorem Standing.Within.of_eq {before now : Standing} (h : now = before) :
    before.Within now :=
  h ▸ ⟨rfl, List.Subset.refl _⟩

theorem Queue.mem_ties {queue : Queue} {tie : Tie} :
    tie ∈ queue.standing.ties ↔
      ∃ client ∈ queue.declared.items, tie = .declared client := by
  simp [Queue.standing, eq_comm (a := tie)]

theorem Route.mem_ties {route : Route} {tie : Tie} :
    tie ∈ route.standing.ties ↔
      ∃ key queue, route.isBound queue key = true ∧ tie = .bound key queue := by
  simp [Route.standing, Route.isBound, MemberIndex.mem_pairs,
    eq_comm (a := tie)]

theorem Channel.mem_ties {channel : Channel} {tie : Tie} :
    tie ∈ channel.standing.ties ↔
      (∃ topic client, channel.hasTopic client topic = true ∧
        tie = .topic topic client) ∨
      ∃ pattern client, channel.hasPattern client pattern = true ∧
        tie = .pattern pattern client := by
  simp [Channel.standing, Channel.hasTopic, Channel.hasPattern,
    MemberIndex.mem_pairs, eq_comm (a := tie)]

theorem Queue.mem_ties_undeclare {queue : Queue} {client : ClientId}
    {tie : Tie} :
    tie ∈ (queue.undeclare client).standing.ties ↔
      tie ∈ queue.standing.ties ∧ tie ≠ .declared client := by
  rw [mem_ties, mem_ties]
  constructor
  · rintro ⟨other, hleft, rfl⟩
    obtain ⟨hmem, hother⟩ := mem_declared_undeclare.mp hleft
    exact ⟨⟨other, hmem, rfl⟩, fun heq => hother (Tie.declared.inj heq)⟩
  · rintro ⟨⟨other, hmem, rfl⟩, hother⟩
    exact ⟨other, mem_declared_undeclare.mpr
      ⟨hmem, fun heq => hother (congrArg _ heq)⟩, rfl⟩

theorem Route.mem_ties_unlink {route : Route} {queue : QueueId} {key : String}
    {tie : Tie} :
    tie ∈ (route.unlink queue key).standing.ties ↔
      tie ∈ route.standing.ties ∧ tie ≠ .bound key queue := by
  rw [mem_ties, mem_ties]
  constructor
  · rintro ⟨another, other, hleft, rfl⟩
    obtain ⟨hbound, hother⟩ := isBound_unlink.mp hleft
    refine ⟨⟨another, other, hbound, rfl⟩, fun heq => hother ?_⟩
    cases heq
    exact ⟨rfl, rfl⟩
  · rintro ⟨⟨another, other, hbound, rfl⟩, hother⟩
    refine ⟨another, other, isBound_unlink.mpr ⟨hbound, ?_⟩, rfl⟩
    rintro ⟨rfl, rfl⟩
    exact hother rfl

theorem Channel.mem_ties_unlinkTopic {channel : Channel} {client : ClientId}
    {topic : String} {tie : Tie} :
    tie ∈ Standing.ties (standing {
        channel with
        topics := channel.topics.unlink topic client
      }) ↔
      tie ∈ channel.standing.ties ∧ tie ≠ .topic topic client := by
  rw [mem_ties, mem_ties]
  simp only [hasTopic, MemberIndex.contains_unlink]
  constructor
  · rintro (⟨other, member, ⟨hlisted, hother⟩, rfl⟩ | hpattern)
    · refine ⟨.inl ⟨other, member, hlisted, rfl⟩, fun heq => hother ?_⟩
      cases heq
      exact ⟨rfl, rfl⟩
    · refine ⟨.inr hpattern, ?_⟩
      obtain ⟨pattern, member, -, rfl⟩ := hpattern
      exact nofun
  · rintro ⟨⟨other, member, hlisted, rfl⟩ | hpattern, hother⟩
    · refine .inl ⟨other, member, ⟨hlisted, ?_⟩, rfl⟩
      rintro ⟨rfl, rfl⟩
      exact hother rfl
    · exact .inr hpattern

theorem Channel.mem_ties_unlinkPattern {channel : Channel} {client : ClientId}
    {pattern : String} {tie : Tie} :
    tie ∈ Standing.ties (standing {
        channel with
        patterns := channel.patterns.unlink pattern client
      }) ↔
      tie ∈ channel.standing.ties ∧ tie ≠ .pattern pattern client := by
  rw [mem_ties, mem_ties]
  simp only [hasPattern, MemberIndex.contains_unlink]
  constructor
  · rintro (htopic | ⟨other, member, ⟨hlisted, hother⟩, rfl⟩)
    · refine ⟨.inl htopic, ?_⟩
      obtain ⟨topic, member, -, rfl⟩ := htopic
      exact nofun
    · refine ⟨.inr ⟨other, member, hlisted, rfl⟩, fun heq => hother ?_⟩
      cases heq
      exact ⟨rfl, rfl⟩
  · rintro ⟨htopic | ⟨other, member, hlisted, rfl⟩, hother⟩
    · exact .inl htopic
    · refine .inr ⟨other, member, ⟨hlisted, ?_⟩, rfl⟩
      rintro ⟨rfl, rfl⟩
      exact hother rfl

theorem Queue.within_declare (queue : Queue) (client : ClientId) :
    queue.standing.Within (queue.declare client).standing where
  autoDelete := rfl
  ties := List.map_subset _ fun _ hmem =>
    MemberSet.mem_items_insert.mpr (.inl hmem)

theorem Queue.standing_subscribe (queue : Queue) (client : ClientId)
    (noticesOnly : Bool) :
    (queue.subscribe client noticesOnly).standing = queue.standing := by
  unfold subscribe
  split <;> rfl

theorem Queue.SameMembers.standing_eq {before after : Queue}
    (h : Queue.SameMembers before after) :
    after.standing = before.standing := by
  unfold standing
  rw [h.settings, h.declared]

theorem Route.within_of_isBound {route next : Route}
    (hflags : next.flags = route.flags)
    (hbound : ∀ queue key, route.isBound queue key = true →
      next.isBound queue key = true) :
    route.standing.Within next.standing where
  autoDelete := congrArg RouteFlags.autoDelete hflags
  ties := by
    intro tie htie
    obtain ⟨key, queue, hlisted, rfl⟩ := mem_ties.mp htie
    exact mem_ties.mpr ⟨key, queue, hbound queue key hlisted, rfl⟩

theorem Channel.within_of_listed {channel next : Channel}
    (hflags : next.flags = channel.flags)
    (htopics : ∀ client topic, channel.hasTopic client topic = true →
      next.hasTopic client topic = true)
    (hpatterns : ∀ client pattern, channel.hasPattern client pattern = true →
      next.hasPattern client pattern = true) :
    channel.standing.Within next.standing where
  autoDelete := congrArg ChannelFlags.autoDelete hflags
  ties := by
    intro tie htie
    rcases mem_ties.mp htie with
      ⟨topic, client, htopic, rfl⟩ | ⟨pattern, client, hpattern, rfl⟩
    · exact mem_ties.mpr (.inl ⟨topic, client, htopics _ _ htopic, rfl⟩)
    · exact mem_ties.mpr (.inr ⟨pattern, client, hpatterns _ _ hpattern, rfl⟩)

theorem Channel.flags_advanced (channel : Channel) (topic : String) :
    (channel.advanced topic).flags = channel.flags := by
  unfold advanced
  split <;> rfl

/-- The entity stays with all its ties, unless it comes about. -/
inductive Growing (fresh : Prop) : Option Standing → Option Standing → Prop
  | absent : Growing fresh none none
  | appears (hfresh : fresh) (now : Standing) : Growing fresh none (some now)
  | stays {before now : Standing} (hwithin : before.Within now) :
      Growing fresh (some before) (some now)

namespace Growing

variable {fresh earlier : Prop} {first middle last : Option Standing}

theorem refl (fresh : Prop) (standing? : Option Standing) :
    Growing fresh standing? standing? := by
  cases standing? with
  | none => exact .absent
  | some standing => exact .stays (.of_eq rfl)

theorem exists_within {now : Standing} (h : Growing fresh first (some now))
    (hold : ¬ fresh) : ∃ before, first = some before ∧ before.Within now := by
  cases h with
  | appears hnew => exact absurd hnew hold
  | stays hwithin => exact ⟨_, rfl, hwithin⟩

theorem trans (hfirst : Growing earlier first middle)
    (hsecond : Growing fresh middle last) (hfresh : fresh → earlier) :
    Growing earlier first last := by
  cases hfirst with
  | absent =>
      cases hsecond with
      | absent => exact .absent
      | appears hnew now => exact .appears (hfresh hnew) now
  | appears hnew =>
      cases hsecond with
      | stays => exact .appears hnew _
  | stays hwithin =>
      cases hsecond with
      | stays hlater =>
          exact .stays ⟨hlater.autoDelete.trans hwithin.autoDelete,
            List.Subset.trans hwithin.ties hlater.ties⟩

end Growing

namespace Registry

variable {ι ε : Type} [DecidableEq ι] {registry : Registry ι ε}
  {view : ε → Standing} {change : ε → ε} {fresh : Prop}

theorem growing_update {id : ι} (other : ι)
    (hchange : ∀ entity, registry.find? id = some entity →
      (view entity).Within (view (change entity))) :
    Growing fresh ((registry.find? other).map view)
      (((registry.update id change).find? other).map view) := by
  rw [find?_update]
  split
  · rename_i hsame
    subst hsame
    cases found : registry.find? other with
    | none => exact .absent
    | some entity => exact .stays (hchange entity found)
  · exact .refl _ _

theorem growing_mapEntities (id : ι)
    (hchange : ∀ entity, (view entity).Within (view (change entity))) :
    Growing fresh ((registry.find? id).map view)
      (((registry.mapEntities change).find? id).map view) := by
  rw [find?_mapEntities]
  cases registry.find? id with
  | none => exact .absent
  | some entity => exact .stays (hchange entity)

variable [Named ι ε]

theorem growing_add {entity : ε} {other : ι}
    (habsent : registry.find? (Named.id entity) = none)
    (hfresh : other = Named.id entity → fresh) :
    Growing fresh ((registry.find? other).map view)
      (((registry.add entity).find? other).map view) := by
  rw [find?_add]
  split
  · rename_i hsame
    have hnew := hfresh hsame
    rw [hsame, habsent]
    exact .appears hnew _
  · exact .refl _ _

theorem Keyed.growing_rename {issued : ι → Prop} (h : registry.Keyed issued)
    {id : ι} {entity : ε} (found : registry.find? id = some entity)
    (name : String) (other : ι)
    (hview : view (Named.rename entity name) = view entity) :
    Growing fresh ((registry.find? other).map view)
      (((registry.rename entity name).find? other).map view) := by
  rw [find?_rename]
  split
  · rename_i hsame
    rw [hsame, h.id_eq found, found, Option.map_some, Option.map_some,
      Option.map_some, hview]
    exact .refl _ _
  · exact .refl _ _

end Registry

namespace Broker

variable {broker middle after : Broker} {stamps : Nat}

/-- No entity goes, and none loses a tie. -/
structure Grows (broker after : Broker) : Prop where
  lastNumber : broker.lastNumber ≤ after.lastNumber
  standings : ∀ entity, Growing (broker.lastNumber < entity.number)
    (broker.standing? entity) (after.standing? entity)

namespace Grows

theorem refl (broker : Broker) : Grows broker broker :=
  ⟨Nat.le_refl _, fun _ => .refl _ _⟩

theorem trans (hfirst : Grows broker middle) (hsecond : Grows middle after) :
    Grows broker after where
  lastNumber := Nat.le_trans hfirst.lastNumber hsecond.lastNumber
  standings entity :=
    (hfirst.standings entity).trans (hsecond.standings entity)
      (Nat.lt_of_le_of_lt hfirst.lastNumber)

theorem of_registries (hlast : broker.lastNumber ≤ after.lastNumber)
    (hqueues : ∀ id : QueueId, Growing (broker.lastNumber < id.number)
      ((broker.queues.find? id).map Queue.standing)
      ((after.queues.find? id).map Queue.standing))
    (hroutes : ∀ id : RouteId, Growing (broker.lastNumber < id.number)
      ((broker.routes.find? id).map Route.standing)
      ((after.routes.find? id).map Route.standing))
    (hchannels : ∀ id : ChannelId, Growing (broker.lastNumber < id.number)
      ((broker.channels.find? id).map Channel.standing)
      ((after.channels.find? id).map Channel.standing)) :
    Grows broker after where
  lastNumber := hlast
  standings entity := by
    cases entity with
    | queue id => exact hqueues id
    | route id => exact hroutes id
    | channel id => exact hchannels id

/-- Only queues have changed. -/
theorem of_queues (hlast : broker.lastNumber ≤ after.lastNumber)
    (hqueues : ∀ id : QueueId, Growing (broker.lastNumber < id.number)
      ((broker.queues.find? id).map Queue.standing)
      ((after.queues.find? id).map Queue.standing))
    (hroutes : after.routes = broker.routes)
    (hchannels : after.channels = broker.channels) : Grows broker after :=
  of_registries hlast hqueues (fun _ => hroutes ▸ .refl _ _)
    fun _ => hchannels ▸ .refl _ _

theorem of_routes (hlast : broker.lastNumber ≤ after.lastNumber)
    (hroutes : ∀ id : RouteId, Growing (broker.lastNumber < id.number)
      ((broker.routes.find? id).map Route.standing)
      ((after.routes.find? id).map Route.standing))
    (hqueues : after.queues = broker.queues)
    (hchannels : after.channels = broker.channels) : Grows broker after :=
  of_registries hlast (fun _ => hqueues ▸ .refl _ _) hroutes
    fun _ => hchannels ▸ .refl _ _

theorem of_channels (hlast : broker.lastNumber ≤ after.lastNumber)
    (hchannels : ∀ id : ChannelId, Growing (broker.lastNumber < id.number)
      ((broker.channels.find? id).map Channel.standing)
      ((after.channels.find? id).map Channel.standing))
    (hqueues : after.queues = broker.queues)
    (hroutes : after.routes = broker.routes) : Grows broker after :=
  of_registries hlast (fun _ => hqueues ▸ .refl _ _)
    (fun _ => hroutes ▸ .refl _ _) hchannels

end Grows

theorem grows_enrolment (hnumbered : broker.Numbered)
    (henrol : Enrolment broker after) : Grows broker after := by
  have hnew : broker.lastNumber < broker.lastNumber + 1 := Nat.lt_succ_self _
  cases henrol with
  | connect =>
      exact .of_queues (Nat.le_refl _) (fun _ => .refl _ _) rfl rfl
  | addQueue =>
      exact .of_queues (Nat.le_succ _) (fun id => Registry.growing_add
        hnumbered.freshQueue fun hid => hid ▸ hnew) rfl rfl
  | addRoute =>
      exact .of_routes (Nat.le_succ _) (fun id => Registry.growing_add
        hnumbered.freshRoute fun hid => hid ▸ hnew) rfl rfl
  | addChannel =>
      exact .of_channels (Nat.le_succ _) (fun id => Registry.growing_add
        hnumbered.freshChannel fun hid => hid ▸ hnew) rfl rfl
  | @declare client =>
      exact .of_queues (Nat.le_refl _) (fun other => Registry.growing_update
        other fun queue _ => queue.within_declare client) rfl rfl
  | @subscribe client _ _ noticesOnly =>
      exact .of_queues (Nat.le_refl _) (fun other => Registry.growing_update
        other fun queue _ =>
          .of_eq (queue.standing_subscribe client noticesOnly)) rfl rfl
  | bind key =>
      refine .of_registries (Nat.le_refl _) (fun other => ?_) (fun other => ?_)
        fun _ => .refl _ _
      · exact Registry.growing_update other fun _ _ => .of_eq rfl
      · exact Registry.growing_update other fun _ _ =>
          Route.within_of_isBound rfl fun _ _ h =>
            Route.isBound_bind.mpr (.inl h)
  | subscribeTopic topic =>
      exact .of_channels (Nat.le_refl _) (fun other => Registry.growing_update
        other fun _ _ => Channel.within_of_listed rfl
          (fun _ _ h => Channel.hasTopic_subscribeTopic.mpr (.inl h))
          fun _ _ h => h) rfl rfl
  | subscribePattern pattern =>
      exact .of_channels (Nat.le_refl _) (fun other => Registry.growing_update
        other fun _ _ => Channel.within_of_listed rfl (fun _ _ h => h)
          fun _ _ h => Channel.hasPattern_subscribePattern.mpr (.inl h)) rfl rfl

theorem grows_upkeep (hnumbered : broker.Numbered)
    (hkeep : Upkeep broker after) : Grows broker after := by
  cases hkeep with
  | renameQueue found =>
      exact .of_queues (Nat.le_refl _) (fun other =>
        hnumbered.queues.growing_rename found _ other rfl) rfl rfl
  | renameRoute found =>
      exact .of_routes (Nat.le_refl _) (fun other =>
        hnumbered.routes.growing_rename found _ other rfl) rfl rfl
  | renameChannel found =>
      exact .of_channels (Nat.le_refl _) (fun other =>
        hnumbered.channels.growing_rename found _ other rfl) rfl rfl
  | rotateRoute id key =>
      exact .of_routes (Nat.le_refl _) (fun other => Registry.growing_update
        other fun _ _ => Route.within_of_isBound rfl
          fun _ _ h => Route.isBound_rotate.trans h) rfl rfl
  | rotateChannel id topic =>
      exact .of_channels (Nat.le_refl _) (fun other => Registry.growing_update
        other fun channel _ => Channel.within_of_listed
          (channel.flags_advanced topic)
          (fun _ _ h => Channel.hasTopic_advanced.trans h)
          fun _ _ h => Channel.hasPattern_advanced.trans h) rfl rfl

theorem grows_gains (hnumbered : broker.Numbered)
    (hgains : Gains broker after) : Grows broker after := by
  induction hgains with
  | refl => exact .refl broker
  | tail gains gain ih =>
      have hmiddle := hnumbered.edits (Gains.arrangements gains).edits
      cases gain with
      | enrol enrolment => exact ih.trans (grows_enrolment hmiddle enrolment)
      | keepUp upkeep => exact ih.trans (grows_upkeep hmiddle upkeep)

theorem grows_putQueue (hnumbered : broker.Numbered) {id : QueueId}
    {queue next : Queue} (found : broker.queues.find? id = some queue)
    (hsame : Queue.SameMembers queue next) {clock : TagClock} :
    Grows broker { broker.putQueue next with clock := clock } := by
  refine .of_queues (Nat.le_refl _) (fun other => ?_) rfl rfl
  have hput := hnumbered.queues.put_eq_update (fun _ => next) found hsame.id
  simp only [putQueue, hput]
  refine Registry.growing_update other fun entity hentity => ?_
  rw [found] at hentity
  cases hentity
  exact .of_eq hsame.standing_eq

theorem grows_push (hnumbered : broker.Numbered) (id : QueueId)
    (payload : Payload) (timeToLive : UInt32) :
    Grows broker (broker.push id payload timeToLive).state := by
  unfold push
  split
  · exact .refl broker
  · rename_i queue found
    exact grows_putQueue hnumbered found (Queue.sameMembers_push queue _ _ _)

theorem grows_fanout (fanout : Fanout) (hnumbered : fanout.broker.Numbered)
    (payload : Payload) (timeToLive : UInt32) (targets : List QueueId) :
    Grows fanout.broker
      (targets.foldl (Fanout.next payload timeToLive) fanout).broker := by
  induction targets generalizing fanout with
  | nil => exact .refl _
  | cons target rest ih =>
      have hpush := grows_push hnumbered target payload timeToLive
      have hnext : (fanout.next payload timeToLive target).broker.Numbered :=
        hnumbered.edits (edits_push hnumbered target payload timeToLive)
      exact hpush.trans (ih (fanout.next payload timeToLive target) hnext)

theorem grows_publishRoute (hnumbered : broker.Numbered) (id : RouteId)
    (key : String) (payload : Payload) (timeToLive : UInt32) :
    Grows broker (broker.publishRoute id key payload timeToLive).state := by
  unfold publishRoute
  split
  · exact .refl broker
  · rename_i route found
    split
    · exact .refl broker
    · rename_i targets next htargets
      have hput := gains_putTargets hnumbered found htargets
      have hturned := hnumbered.edits hput.arrangements.edits
      exact (grows_gains hnumbered hput).trans
        (grows_fanout ⟨broker.putRoute next, 0, []⟩ hturned payload timeToLive
          targets)

theorem grows_perform (hnumbered : broker.Numbered) {command : Command}
    (hkeeps : isWithdrawal command = false) :
    Grows broker (broker.perform command).state := by
  cases command with
  | push queue payload timeToLive =>
      exact grows_push hnumbered queue payload timeToLive
  | pop id holdTime =>
      show Grows broker (broker.pop id holdTime).state
      unfold pop
      split
      · exact .refl broker
      · rename_i queue found
        exact grows_putQueue hnumbered found
          (Queue.refilled_pop queue _ _).sameMembers
  | confirm id tag =>
      show Grows broker (broker.confirm id tag).state
      unfold confirm
      split
      · exact .refl broker
      · rename_i queue found
        split
        · exact .refl broker
        · rename_i next confirmed
          exact grows_putQueue hnumbered found
            (Queue.refilled_confirm confirmed).sameMembers
  | purge id =>
      show Grows broker (broker.purge id).state
      unfold purge
      split
      · exact .refl broker
      · rename_i queue found
        have hsame := (Queue.rebuffered_purge queue).refilled.sameMembers
        exact grows_putQueue hnumbered found hsame
  | publishRoute route key payload timeToLive =>
      exact grows_publishRoute hnumbered route key payload timeToLive
  | tick now =>
      exact .of_queues (Nat.le_refl _) (fun id =>
        Registry.growing_mapEntities id fun queue =>
          .of_eq (queue.refilled_sweep now).sameMembers.standing_eq) rfl rfl
  | _ => exact grows_gains hnumbered (gains_perform hnumbered rfl hkeeps)

end Broker

end MessageBroker
