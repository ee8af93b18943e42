import MessageBroker.Proofs.Broker.Delivery

/-! The sets of a broker whose members are served in turn. A command that does
not publish leaves such a set in its order, or else it changes who is in it. -/

namespace MessageBroker

/-- Where a set is kept whose members are served in turn. -/
inductive Wheel where
  | subscribers (queue : QueueId)
  | bindings (route : RouteId) (key : String)
  | listeners (channel : ChannelId) (topic : String)

abbrev Wheel.Member : Wheel → Type
  | subscribers _ => ClientId
  | bindings _ _ => QueueId
  | listeners _ _ => ClientId

def Queue.roster? (queue : Queue) : Option (List ClientId) :=
  if queue.settings.flags.roundRobin then some queue.messageSubscribers.items
  else none

theorem Queue.roster?_eq_some_iff {queue : Queue} {members : List ClientId} :
    queue.roster? = some members ↔
      queue.settings.flags.roundRobin = true ∧
        queue.messageSubscribers.items = members := by
  simp [roster?]

def Route.roster? (key : String) (route : Route) : Option (List QueueId) :=
  if route.flags.roundRobin then some (route.bindings.members key) else none

theorem Route.roster?_eq_some_iff {route : Route} {key : String}
    {members : List QueueId} :
    route.roster? key = some members ↔
      route.flags.roundRobin = true ∧ route.bindings.members key = members := by
  simp [roster?]

def Channel.roster? (topic : String) (channel : Channel) :
    Option (List ClientId) :=
  if channel.flags.roundRobin then some (channel.topics.members topic)
  else none

theorem Channel.roster?_eq_some_iff {channel : Channel} {topic : String}
    {members : List ClientId} :
    channel.roster? topic = some members ↔
      channel.flags.roundRobin = true ∧
        channel.topics.members topic = members := by
  simp [roster?]

/-- The members in their order, if they are served in turn. -/
def Broker.roster? (broker : Broker) :
    (wheel : Wheel) → Option (List wheel.Member)
  | .subscribers id => (broker.queues.find? id).bind Queue.roster?
  | .bindings id key => (broker.routes.find? id).bind (Route.roster? key)
  | .listeners id topic =>
      (broker.channels.find? id).bind (Channel.roster? topic)

namespace Roster

variable {α : Type} {first middle last : Option (List α)}
  {before after : List α}

/-- Members only leave, unless the set comes to an end. -/
def Thins (first last : Option (List α)) : Prop :=
  ∀ after, last = some after → ∃ before, first = some before ∧
    after.Sublist before

/-- Members only leave or only join, if the set is there all the time. -/
def Nests (first last : Option (List α)) : Prop :=
  ∀ before after, first = some before → last = some after →
    before.Sublist after ∨ after.Sublist before

theorem Thins.refl (members : Option (List α)) : Thins members members :=
  fun after hafter => ⟨after, hafter, .refl after⟩

theorem Thins.of_eq (h : last = first) : Thins first last :=
  h ▸ .refl _

theorem Thins.trans (hfirst : Thins first middle) (hlast : Thins middle last) :
    Thins first last := by
  intro after hafter
  obtain ⟨between, hbetween, hlater⟩ := hlast after hafter
  obtain ⟨before, hbefore, hearlier⟩ := hfirst between hbetween
  exact ⟨before, hbefore, hlater.trans hearlier⟩

theorem Thins.to_none : Thins first none :=
  fun _ => nofun

theorem Thins.nests (h : Thins first last) : Nests first last := by
  intro before after hbefore hafter
  obtain ⟨_, hsame, hsublist⟩ := h after hafter
  cases hbefore.symm.trans hsame
  exact .inr hsublist

theorem Nests.of_eq (h : last = first) : Nests first last :=
  (Thins.of_eq h).nests

theorem Nests.refl (members : Option (List α)) : Nests members members :=
  .of_eq rfl

theorem thins_ite {turning : Prop} [Decidable turning]
    (hsublist : after.Sublist before) :
    Thins (if turning then some before else none)
      (if turning then some after else none) := by
  intro _ hafter
  split at hafter
  · rename_i hturning
    cases hafter
    exact ⟨before, if_pos hturning, hsublist⟩
  · cases hafter

theorem nests_ite {turning : Prop} [Decidable turning]
    (hsublist : before.Sublist after ∨ after.Sublist before) :
    Nests (if turning then some before else none)
      (if turning then some after else none) := by
  intro _ _ hbefore hafter
  split at hbefore
  · cases hbefore
    split at hafter
    · cases hafter
      exact hsublist
    · contradiction
  · cases hbefore

theorem Nests.eq (h : Nests first last) (hbefore : first = some before)
    (hafter : last = some after) (hnodup : before.Nodup) (hnodup' : after.Nodup)
    (hsame : ∀ member, member ∈ after ↔ member ∈ before) : after = before := by
  have hlength := ((List.perm_ext_iff_of_nodup hnodup' hnodup).mpr
    hsame).length_eq
  rcases h before after hbefore hafter with hsublist | hsublist
  · exact (hsublist.eq_of_length hlength.symm).symm
  · exact hsublist.eq_of_length hlength

end Roster

open Roster

namespace Queue

theorem roster?_of_refilled {queue next : Queue} (h : Refilled queue next) :
    next.roster? = queue.roster? := by
  obtain ⟨_, _, _, _, rfl⟩ := h
  rfl

theorem thins_unsubscribe (queue : Queue) (client : ClientId) :
    Thins queue.roster? (queue.unsubscribe client).roster? :=
  thins_ite List.filter_sublist

theorem nests_subscribe (queue : Queue) (client : ClientId)
    (noticesOnly : Bool) :
    Nests queue.roster? (queue.subscribe client noticesOnly).roster? := by
  unfold subscribe
  split
  · exact nests_ite (.inr List.filter_sublist)
  · refine nests_ite (.inl ?_)
    rw [MemberSet.items_insert]
    split
    · exact .refl _
    · exact List.sublist_append_left _ _

end Queue

namespace MemberIndex

variable {κ α : Type} [DecidableEq κ] [DecidableEq α]

theorem sublist_members_unlink (index : MemberIndex κ α) (key other : κ)
    (member : α) :
    ((index.unlink other member).members key).Sublist (index.members key) := by
  rw [members_unlink]
  split
  · exact List.filter_sublist
  · exact .refl _

theorem sublist_members_link (index : MemberIndex κ α) (key other : κ)
    (member : α) :
    (index.members key).Sublist ((index.link other member).members key) := by
  rw [members_link]
  split
  · rename_i hsame
    rw [hsame]
    split
    · exact .refl _
    · exact List.sublist_append_left _ _
  · exact .refl _

end MemberIndex

namespace Registry

variable {ι ε β α : Type} [DecidableEq ι] {view : ε → Option β}
  {items : ε → Option (List α)}

theorem bind_find?_update (registry : Registry ι ε) (target id : ι)
    (change : ε → ε) (h : ∀ entity, view (change entity) = view entity) :
    ((registry.update target change).find? id).bind view =
      (registry.find? id).bind view := by
  rw [find?_update]
  split
  · cases registry.find? id with
    | none => rfl
    | some entity => exact h entity
  · rfl

theorem related_update {related : Option β → Option β → Prop}
    (hrefl : ∀ value, related value value) (registry : Registry ι ε)
    (target id : ι) (change : ε → ε)
    (hchange : ∀ entity, related (view entity) (view (change entity))) :
    related ((registry.find? id).bind view)
      (((registry.update target change).find? id).bind view) := by
  rw [find?_update]
  split
  · cases registry.find? id with
    | none => exact hrefl none
    | some entity => exact hchange entity
  · exact hrefl _

theorem thins_foldl {σ : Type} {step : Registry ι ε → σ → Registry ι ε}
    {id : ι} (registry : Registry ι ε) (entries : List σ)
    (hstep : ∀ registry entry, Thins ((registry.find? id).bind items)
      (((step registry entry).find? id).bind items)) :
    Thins ((registry.find? id).bind items)
      (((entries.foldl step registry).find? id).bind items) := by
  induction entries generalizing registry with
  | nil => exact .refl _
  | cons entry rest ih => exact (hstep registry entry).trans (ih _)

variable [Named ι ε]

theorem thins_erase (registry : Registry ι ε) (entity : ε) (id : ι) :
    Thins ((registry.find? id).bind items)
      (((registry.erase entity).find? id).bind items) := by
  rw [find?_erase]
  split
  · exact .to_none
  · exact .refl _

theorem nests_add {registry : Registry ι ε} {entity : ε}
    (hnew : registry.find? (Named.id entity) = none) (id : ι) :
    Nests ((registry.find? id).bind items)
      (((registry.add entity).find? id).bind items) := by
  rw [find?_add]
  split
  · rename_i hsame
    rw [hsame, hnew]
    intro _ _ hbefore
    cases hbefore
  · exact .refl _

theorem bind_find?_rename {registry : Registry ι ε}
    (h : ∀ entity name, view (Named.rename entity name) = view entity)
    {id other : ι} {entity : ε} (found : registry.find? id = some entity)
    (hid : Named.id entity = id) (name : String) :
    ((registry.rename entity name).find? other).bind view =
      (registry.find? other).bind view := by
  rw [find?_rename, hid]
  split
  · rename_i hsame
    rw [hsame, found]
    exact h entity name
  · rfl

end Registry

namespace Broker

variable {broker after : Broker}

theorem related_roster
    {related : ∀ {α : Type}, Option (List α) → Option (List α) → Prop}
    (hqueues : ∀ id, related ((broker.queues.find? id).bind Queue.roster?)
      ((after.queues.find? id).bind Queue.roster?))
    (hroutes : ∀ id key,
      related ((broker.routes.find? id).bind (Route.roster? key))
        ((after.routes.find? id).bind (Route.roster? key)))
    (hchannels : ∀ id topic,
      related ((broker.channels.find? id).bind (Channel.roster? topic))
        ((after.channels.find? id).bind (Channel.roster? topic)))
    (wheel : Wheel) : related (broker.roster? wheel) (after.roster? wheel) := by
  cases wheel with
  | subscribers id => exact hqueues id
  | bindings id key => exact hroutes id key
  | listeners id topic => exact hchannels id topic

theorem nodup_roster {wheel : Wheel} {members : List wheel.Member}
    (hmembers : broker.roster? wheel = some members) : members.Nodup := by
  cases wheel with
  | subscribers id =>
      obtain ⟨queue, -, hqueue⟩ := Option.bind_eq_some_iff.mp hmembers
      obtain ⟨-, rfl⟩ := Queue.roster?_eq_some_iff.mp hqueue
      exact queue.messageSubscribers.nodup_items
  | bindings id key =>
      obtain ⟨route, -, hroute⟩ := Option.bind_eq_some_iff.mp hmembers
      obtain ⟨-, rfl⟩ := Route.roster?_eq_some_iff.mp hroute
      exact route.bindings.nodup_members key
  | listeners id topic =>
      obtain ⟨channel, -, hchannel⟩ := Option.bind_eq_some_iff.mp hmembers
      obtain ⟨-, rfl⟩ := Channel.roster?_eq_some_iff.mp hchannel
      exact channel.topics.nodup_members topic

theorem thins_unlink (routes : Registry RouteId Route) (target : RouteId)
    (queue : QueueId) (key : String) (id : RouteId) (other : String) :
    Thins ((routes.find? id).bind (Route.roster? other))
      (((routes.update target fun route => route.unlink queue key).find?
        id).bind (Route.roster? other)) := by
  apply Registry.related_update .refl
  intro route
  exact thins_ite (route.bindings.sublist_members_unlink other key queue)

theorem roster?_unlinkRoute (queues : Registry QueueId Queue)
    (target : QueueId) (route : RouteId) (key : String) (id : QueueId) :
    ((queues.update target fun queue => queue.unlinkRoute route key).find?
        id).bind Queue.roster? = (queues.find? id).bind Queue.roster? :=
  queues.bind_find?_update target id _ fun _ => rfl

theorem thins_withdrawal (withdrawal : Withdrawal broker after)
    (wheel : Wheel) : Thins (broker.roster? wheel) (after.roster? wheel) := by
  cases withdrawal with
  | leave => exact .refl _
  | @dropQueue id queue found =>
      refine related_roster (fun other => ?queue) (fun other key => ?route)
        (fun _ _ => .refl _) wheel
      case queue => exact Registry.thins_erase broker.queues queue other
      case route =>
        exact broker.routes.thins_foldl queue.bindings.pairs
          fun routes binding =>
            thins_unlink routes binding.2 queue.id binding.1 other key
  | @dropRoute id route found =>
      refine related_roster (fun other => ?queue) (fun other key => ?route)
        (fun _ _ => .refl _) wheel
      case queue =>
        exact broker.queues.thins_foldl route.bindings.pairs
          fun queues binding => .of_eq
            (roster?_unlinkRoute queues binding.2 route.id binding.1 other)
      case route => exact Registry.thins_erase broker.routes route other
  | @dropChannel id channel found =>
      refine related_roster (fun _ => .refl _) (fun _ _ => .refl _)
        (fun other topic => ?_) wheel
      exact Registry.thins_erase broker.channels channel other
  | @undeclare client id queue found =>
      refine related_roster (fun other => ?_) (fun _ _ => .refl _)
        (fun _ _ => .refl _) wheel
      exact .of_eq (broker.queues.bind_find?_update id other _ fun _ => rfl)
  | @unsubscribe client id queue found =>
      refine related_roster (fun other => ?_) (fun _ _ => .refl _)
        (fun _ _ => .refl _) wheel
      exact broker.queues.related_update .refl id other _
        fun queue => queue.thins_unsubscribe client
  | @unbind id route queue key found =>
      refine related_roster (fun other => ?queue) (fun other here => ?route)
        (fun _ _ => .refl _) wheel
      case queue =>
        exact .of_eq (roster?_unlinkRoute broker.queues queue id key other)
      case route => exact thins_unlink broker.routes id queue key other here
  | @unsubscribeTopic client id channel topic found =>
      refine related_roster (fun _ => .refl _) (fun _ _ => .refl _)
        (fun other here => ?_) wheel
      apply broker.channels.related_update .refl
      intro channel
      exact thins_ite (channel.topics.sublist_members_unlink here topic client)
  | @unsubscribePattern client id channel pattern found =>
      refine related_roster (fun _ => .refl _) (fun _ _ => .refl _)
        (fun other here => ?_) wheel
      exact .of_eq (broker.channels.bind_find?_update id other _ fun _ => rfl)
  | flush =>
      exact related_roster (fun _ => .to_none) (fun _ _ => .to_none)
        (fun _ _ => .to_none) wheel

theorem Withdrawals.thins (withdrawals : Withdrawals broker after)
    (wheel : Wheel) : Thins (broker.roster? wheel) (after.roster? wheel) := by
  induction withdrawals with
  | refl => exact .refl _
  | tail _ withdrawal ih => exact ih.trans (thins_withdrawal withdrawal wheel)

theorem nests_enrolment (hnumbered : broker.Numbered)
    (enrolment : Enrolment broker after) (wheel : Wheel) :
    Nests (broker.roster? wheel) (after.roster? wheel) := by
  cases enrolment with
  | connect => exact .refl _
  | addQueue =>
      refine related_roster (fun other => ?_) (fun _ _ => .refl _)
        (fun _ _ => .refl _) wheel
      exact Registry.nests_add hnumbered.freshQueue other
  | addRoute =>
      refine related_roster (fun _ => .refl _) (fun other key => ?_)
        (fun _ _ => .refl _) wheel
      exact Registry.nests_add hnumbered.freshRoute other
  | addChannel =>
      refine related_roster (fun _ => .refl _) (fun _ _ => .refl _)
        (fun other topic => ?_) wheel
      exact Registry.nests_add hnumbered.freshChannel other
  | @declare client id queue connected found =>
      refine related_roster (fun other => ?_) (fun _ _ => .refl _)
        (fun _ _ => .refl _) wheel
      exact .of_eq (broker.queues.bind_find?_update id other _ fun _ => rfl)
  | @subscribe client id queue noticesOnly connected found =>
      refine related_roster (fun other => ?_) (fun _ _ => .refl _)
        (fun _ _ => .refl _) wheel
      exact broker.queues.related_update .refl id other _
        fun queue => queue.nests_subscribe client noticesOnly
  | @bind id queue route target key foundRoute foundQueue =>
      refine related_roster (fun other => ?queue) (fun other here => ?route)
        (fun _ _ => .refl _) wheel
      case queue =>
        exact .of_eq (broker.queues.bind_find?_update queue other _ fun _ => rfl)
      case route =>
        apply broker.routes.related_update .refl
        intro route
        exact nests_ite
          (.inl (route.bindings.sublist_members_link here key queue))
  | @subscribeTopic client id channel topic connected found =>
      refine related_roster (fun _ => .refl _) (fun _ _ => .refl _)
        (fun other here => ?_) wheel
      apply broker.channels.related_update .refl
      intro channel
      exact nests_ite
        (.inl (channel.topics.sublist_members_link here topic client))
  | @subscribePattern client id channel pattern connected found =>
      refine related_roster (fun _ => .refl _) (fun _ _ => .refl _)
        (fun other here => ?_) wheel
      exact .of_eq (broker.channels.bind_find?_update id other _ fun _ => rfl)

theorem nests_extension (hnumbered : broker.Numbered)
    (extension : Extension broker after) (wheel : Wheel) :
    Nests (broker.roster? wheel) (after.roster? wheel) := by
  cases extension with
  | refl => exact .refl _
  | enrol enrolment => exact nests_enrolment hnumbered enrolment wheel
  | @renameQueue id queue name found valid fresh =>
      refine related_roster (fun other => ?_) (fun _ _ => .refl _)
        (fun _ _ => .refl _) wheel
      exact .of_eq (Registry.bind_find?_rename (fun _ _ => rfl) found
        (hnumbered.queues.id_eq found) name)
  | @renameRoute id route name found valid fresh =>
      refine related_roster (fun _ => .refl _) (fun other key => ?_)
        (fun _ _ => .refl _) wheel
      exact .of_eq (Registry.bind_find?_rename (fun _ _ => rfl) found
        (hnumbered.routes.id_eq found) name)
  | @renameChannel id channel name found valid fresh =>
      refine related_roster (fun _ => .refl _) (fun _ _ => .refl _)
        (fun other topic => ?_) wheel
      exact .of_eq (Registry.bind_find?_rename (fun _ _ => rfl) found
        (hnumbered.channels.id_eq found) name)

theorem roster?_putQueue (hnumbered : broker.Numbered) {id : QueueId}
    {queue next : Queue} (found : broker.queues.find? id = some queue)
    (hrefilled : queue.Refilled next) (wheel : Wheel) :
    (broker.putQueue next).roster? wheel = broker.roster? wheel := by
  have hput := hnumbered.queues.put_eq_update (fun _ => next) found
    hrefilled.id_eq
  cases wheel with
  | subscribers other =>
      unfold roster? putQueue
      dsimp only
      rw [hput, Registry.find?_update]
      split
      · rename_i hsame
        rw [hsame, found]
        exact Queue.roster?_of_refilled hrefilled
      · rfl
  | bindings => rfl
  | listeners => rfl

theorem roster?_tick (broker : Broker) (now : Timestamp) (wheel : Wheel) :
    (broker.tick now).state.roster? wheel = broker.roster? wheel := by
  cases wheel with
  | subscribers id =>
      show ((broker.queues.mapEntities _).find? id).bind _ =
        (broker.queues.find? id).bind _
      rw [Registry.find?_mapEntities]
      cases broker.queues.find? id with
      | none => rfl
      | some queue => exact Queue.roster?_of_refilled (queue.refilled_sweep now)
  | bindings => rfl
  | listeners => rfl

theorem nests_perform (h : broker.Consistent) {command : Command}
    (hquiet : isPublishing command = false) (wheel : Wheel) :
    Nests (broker.roster? wheel)
      ((broker.perform command).state.roster? wheel) := by
  by_cases hwithdraws : isWithdrawal command = true
  · exact ((withdrawals_perform h hwithdraws).thins wheel).nests
  · rw [Bool.not_eq_true] at hwithdraws
    cases command with
    | push | publishRoute | publishChannel => cases hquiet
    | pop id holdTime =>
        refine .of_eq ?_
        show (broker.pop id holdTime).state.roster? wheel = _
        unfold pop
        split
        · rfl
        · rename_i queue found
          exact roster?_putQueue h.numbered found
            (queue.refilled_pop holdTime broker.now) wheel
    | confirm id tag =>
        refine .of_eq ?_
        show (broker.confirm id tag).state.roster? wheel = _
        unfold confirm
        split
        · rfl
        · rename_i queue found
          split
          · rfl
          · rename_i next confirmed
            exact roster?_putQueue h.numbered found
              (Queue.refilled_confirm confirmed) wheel
    | purge id =>
        refine .of_eq ?_
        show (broker.purge id).state.roster? wheel = _
        unfold purge
        split
        · rfl
        · rename_i queue found
          exact roster?_putQueue h.numbered found
            (Queue.rebuffered_purge queue).refilled wheel
    | tick now => exact .of_eq (roster?_tick broker now wheel)
    | _ =>
        exact nests_extension h.numbered
          (extension_perform h.numbered rfl hwithdraws nofun) wheel

end Broker

end MessageBroker
