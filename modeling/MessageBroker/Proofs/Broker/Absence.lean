import MessageBroker.Proofs.Broker.Delivery

/-! A client that has left hears nothing until it has come back and subscribed
again. -/

namespace MessageBroker

def Command.Subscribes (client : ClientId) : Command → Prop
  | .subscribeQueue other _ _ => other = client
  | .subscribeTopic other _ _ => other = client
  | .subscribePattern other _ _ => other = client
  | _ => False

/-- The links name nothing that is listened to. -/
structure ClientLinks.Unsubscribed (links : ClientLinks) : Prop where
  subscribed : ∀ id, id ∉ links.subscribedQueues.items
  topics : ∀ id topic, links.hasTopic id topic ≠ true
  patterns : ∀ id pattern, links.hasPattern id pattern ≠ true

theorem ClientLinks.Unsubscribed.within {fewer more : ClientLinks}
    (h : more.Unsubscribed) (hwithin : fewer.Within more) :
    fewer.Unsubscribed where
  subscribed id hmem := h.subscribed id (hwithin.subscribed id hmem)
  topics id topic htopic := h.topics id topic (hwithin.topics id topic htopic)
  patterns id pattern hpattern :=
    h.patterns id pattern (hwithin.patterns id pattern hpattern)

theorem ClientLinks.unsubscribed_empty : ClientLinks.empty.Unsubscribed where
  subscribed _ := List.not_mem_nil
  topics _ _ := Bool.false_ne_true
  patterns _ _ := Bool.false_ne_true

namespace Clients

def Unsubscribed (clients : Clients) (client : ClientId) : Prop :=
  ∀ links, clients.get? client = some links → links.Unsubscribed

variable {command : Command} {before after : Clients} {client : ClientId}

theorem unsubscribed_of_absent (habsent : before.get? client = none) :
    Unsubscribed before client := by
  intro links hlinks
  rw [habsent] at hlinks
  cases hlinks

/-- What a command may do to the clients and their links. -/
inductive Follows (command : Command) (before : Clients) : Clients → Prop
  | fewer {after : Clients} (hwithin : Within after before) :
      Follows command before after
  | connects {client : ClientId} (hcommand : command = .connect client)
      (hnew : before.contains client = false) :
      Follows command before (before.insert client .empty)
  | declares (client : ClientId) (id : QueueId) :
      Follows command before
        (before.modify client fun links => links.addDeclared id)
  | subscribes (client : ClientId) (hcommand : command.Subscribes client)
      (change : ClientLinks → ClientLinks) :
      Follows command before (before.modify client change)

namespace Follows

theorem refl (command : Command) (clients : Clients) :
    Follows command clients clients :=
  .fewer (.refl clients)

theorem of_eq (hsame : after = before) : Follows command before after :=
  hsame ▸ .refl command before

theorem absent (h : Follows command before after)
    (habsent : before.get? client = none)
    (hcommand : command ≠ .connect client) :
    after.get? client = none := by
  cases h with
  | fewer hwithin =>
      rw [Option.eq_none_iff_forall_ne_some]
      intro links hlinks
      obtain ⟨more, hmore, -⟩ := hwithin client links hlinks
      rw [habsent] at hmore
      cases hmore
  | @connects other hconnect =>
      rw [AssocList.get?_insert, if_neg, habsent]
      rintro rfl
      exact hcommand hconnect
  | declares other id =>
      rw [AssocList.get?_modify, habsent]
      exact ite_self _
  | subscribes other hsubscribes change =>
      rw [AssocList.get?_modify, habsent]
      exact ite_self _

theorem unsubscribed (h : Follows command before after)
    (hunsubscribed : Unsubscribed before client)
    (hcommand : ¬ command.Subscribes client) : Unsubscribed after client := by
  intro links hlinks
  cases h with
  | fewer hwithin =>
      obtain ⟨more, hmore, hfewer⟩ := hwithin client links hlinks
      exact (hunsubscribed more hmore).within hfewer
  | connects =>
      rw [AssocList.get?_insert] at hlinks
      split at hlinks
      · cases hlinks
        exact ClientLinks.unsubscribed_empty
      · exact hunsubscribed links hlinks
  | declares other id =>
      rw [AssocList.get?_modify] at hlinks
      split at hlinks
      · obtain ⟨old, hold, rfl⟩ := Option.map_eq_some_iff.mp hlinks
        have hnothing := hunsubscribed old hold
        exact ⟨hnothing.subscribed, hnothing.topics, hnothing.patterns⟩
      · exact hunsubscribed links hlinks
  | subscribes other hsubscribes =>
      rw [AssocList.get?_modify, if_neg] at hlinks
      · exact hunsubscribed links hlinks
      · rintro rfl
        exact hcommand hsubscribes

end Follows

end Clients

namespace Broker

variable {broker : Broker} {client : ClientId} {delivery : Delivery}

theorem clients_push (broker : Broker) (id : QueueId) (payload : Payload)
    (timeToLive : UInt32) :
    (broker.push id payload timeToLive).state.clients = broker.clients := by
  unfold push
  split <;> rfl

theorem clients_publishRoute (broker : Broker) (id : RouteId) (key : String)
    (payload : Payload) (timeToLive : UInt32) :
    (broker.publishRoute id key payload timeToLive).state.clients =
      broker.clients := by
  unfold publishRoute
  split
  · rfl
  · split
    · rfl
    · apply List.foldlRecOn (motive := fun fanout : Fanout =>
        fanout.broker.clients = broker.clients)
      · rfl
      · intro fanout hfanout target _
        exact (fanout.broker.clients_push _ _ _).trans hfanout

theorem follows_connect (broker : Broker) (client : ClientId) :
    Clients.Follows (.connect client) broker.clients
      (broker.connect client).state.clients := by
  unfold connect
  split
  · exact .refl _ _
  · rename_i hnew
    exact .connects rfl (Bool.eq_false_iff.mpr hnew)

theorem follows_declareQueue (broker : Broker) (client : ClientId)
    (id : QueueId) :
    Clients.Follows (.declareQueue client id) broker.clients
      (broker.declareQueue client id).state.clients := by
  unfold declareQueue
  repeat' split
  all_goals first | exact .refl _ _ | exact .declares client id

theorem follows_subscribeQueue (broker : Broker) (client : ClientId)
    (id : QueueId) (noticesOnly : Bool) :
    Clients.Follows (.subscribeQueue client id noticesOnly) broker.clients
      (broker.subscribeQueue client id noticesOnly).state.clients := by
  have hsubscribes :
      (Command.subscribeQueue client id noticesOnly).Subscribes client := rfl
  unfold subscribeQueue
  repeat' split
  all_goals first
    | exact .refl _ _
    | exact .subscribes client hsubscribes fun links =>
        links.addSubscribed id

theorem follows_subscribeTopic (broker : Broker) (client : ClientId)
    (id : ChannelId) (topic : String) :
    Clients.Follows (.subscribeTopic client id topic) broker.clients
      (broker.subscribeTopic client id topic).state.clients := by
  have hsubscribes :
      (Command.subscribeTopic client id topic).Subscribes client := rfl
  unfold subscribeTopic
  repeat' split
  all_goals first
    | exact .refl _ _
    | exact .subscribes client hsubscribes fun links =>
        links.addTopic id topic

theorem follows_subscribePattern (broker : Broker) (client : ClientId)
    (id : ChannelId) (pattern : String) :
    Clients.Follows (.subscribePattern client id pattern) broker.clients
      (broker.subscribePattern client id pattern).state.clients := by
  have hsubscribes :
      (Command.subscribePattern client id pattern).Subscribes client := rfl
  unfold subscribePattern
  repeat' split
  all_goals first
    | exact .refl _ _
    | exact .subscribes client hsubscribes fun links =>
        links.addPattern id pattern

theorem follows_perform (h : broker.Consistent) (command : Command) :
    Clients.Follows command broker.clients
      (broker.perform command).state.clients := by
  by_cases hwithdraws : isWithdrawal command = true
  · exact .fewer (withdrawals_perform h hwithdraws).clients_within
  · cases command with
    | connect client => exact broker.follows_connect client
    | declareQueue client queue =>
        exact broker.follows_declareQueue client queue
    | subscribeQueue client queue noticesOnly =>
        exact broker.follows_subscribeQueue client queue noticesOnly
    | subscribeTopic client channel topic =>
        exact broker.follows_subscribeTopic client channel topic
    | subscribePattern client channel pattern =>
        exact broker.follows_subscribePattern client channel pattern
    | eject | deleteQueue | undeclareQueue | unsubscribeQueue | deleteRoute
    | unbind | deleteChannel | unsubscribeTopic | unsubscribePattern | flush =>
        exact absurd rfl hwithdraws
    | push queue payload timeToLive =>
        exact .of_eq (broker.clients_push queue payload timeToLive)
    | publishRoute route key payload timeToLive =>
        exact .of_eq (broker.clients_publishRoute route key payload timeToLive)
    | _ =>
        -- The others do not look at clients.
        refine .of_eq ?_
        simp only [perform, Result.reply, Outcome.lift, createQueue,
          renameQueue, pop, confirm, purge, createRoute, renameRoute, bind,
          createChannel, renameChannel, publishChannel, tick]
        repeat' split
        all_goals rfl

theorem not_addresses_of_unsubscribed (h : broker.Consistent)
    (hunsubscribed : Clients.Unsubscribed broker.clients client) :
    ¬ broker.Addresses client delivery := by
  rintro ⟨-, hlistens⟩
  cases delivery with
  | message name tag payload =>
      obtain ⟨id, queue, -, found, -, hmember⟩ := hlistens
      obtain ⟨links, hlinks, hmem⟩ := (h.memberships.subscribed id client).mp
        ⟨queue, found, .inl hmember⟩
      exact (hunsubscribed links hlinks).subscribed id hmem
  | notice name =>
      obtain ⟨id, queue, -, found, -, hmember⟩ := hlistens
      obtain ⟨links, hlinks, hmem⟩ := (h.memberships.subscribed id client).mp
        ⟨queue, found, .inr hmember⟩
      exact (hunsubscribed links hlinks).subscribed id hmem
  | topic name topic payload =>
      obtain ⟨id, channel, -, found, -, hmember⟩ := hlistens
      obtain ⟨links, hlinks, htopic⟩ :=
        (h.memberships.topics topic id client).mp ⟨channel, found, hmember⟩
      exact (hunsubscribed links hlinks).topics id topic htopic
  | pattern name topic pattern payload =>
      obtain ⟨-, id, channel, -, found, -, hmember⟩ := hlistens
      obtain ⟨links, hlinks, hpattern⟩ :=
        (h.memberships.patterns pattern id client).mp ⟨channel, found, hmember⟩
      exact (hunsubscribed links hlinks).patterns id pattern hpattern

theorem unsubscribed_run (h : broker.Consistent)
    (hunsubscribed : Clients.Unsubscribed broker.clients client)
    (commands : List Command)
    (hnone : ∀ command ∈ commands, ¬ command.Subscribes client) :
    Clients.Unsubscribed (broker.run commands).clients client := by
  induction commands generalizing broker with
  | nil => exact hunsubscribed
  | cons command rest ih =>
      exact ih (h.edits (edits_perform h command))
        ((follows_perform h command).unsubscribed hunsubscribed
          (hnone command List.mem_cons_self))
        fun later hlater => hnone later (List.mem_cons_of_mem _ hlater)

/-- Until it has connected, a client that is not there stays away. From then on
it takes a subscription for it to listen. -/
theorem unsubscribed_run_of_absent (h : broker.Consistent)
    (habsent : broker.clients.get? client = none) (commands : List Command)
    (hnone : ∀ subscription : Command, subscription.Subscribes client →
      ¬ [.connect client, subscription].Sublist commands) :
    Clients.Unsubscribed (broker.run commands).clients client := by
  induction commands generalizing broker with
  | nil => exact Clients.unsubscribed_of_absent habsent
  | cons command rest ih =>
      have hnext := h.edits (edits_perform h command)
      have hfollows := follows_perform h command
      by_cases hconnect : command = .connect client
      · subst hconnect
        refine unsubscribed_run hnext ?_ rest fun later hlater hsubscribes => ?_
        · exact hfollows.unsubscribed
            (Clients.unsubscribed_of_absent habsent) id
        · exact hnone later hsubscribes
            ((List.singleton_sublist.mpr hlater).cons_cons _)
      · refine ih hnext (hfollows.absent habsent hconnect) ?_
        exact fun later hsubscribes hsublist =>
          hnone later hsubscribes (hsublist.cons _)

theorem get?_clients_eject (broker : Broker) (client : ClientId) :
    (broker.eject client).state.clients.get? client = none := by
  unfold eject
  split
  · assumption
  · exact (AssocList.get?_erase _ _ _).trans (if_pos rfl)

/-- Whatever is delivered goes to a client that is connected and listens to it,
and nothing goes to a client that has left before it has come back and
subscribed again. -/
theorem Reached.deliveries_addressed {stamps : Nat}
    (reached : Reached stamps broker) :
    (∀ command client delivery,
      .deliver client delivery ∈ (broker.perform command).signals →
        broker.Addresses client delivery ∧
          (broker.perform command).state.Addresses client delivery) ∧
    ∀ client commands command delivery,
      .deliver client delivery ∈ (((broker.perform (.eject client)).state.run
        commands).perform command).signals →
      ∃ subscription : Command, subscription.Subscribes client ∧
        [.connect client, subscription].Sublist commands := by
  refine ⟨fun command client delivery hmem =>
    addresses_perform reached.consistent reached.listed hmem, ?_⟩
  intro client commands command delivery hmem
  have hleft := reached.perform (.eject client)
  have hlater := hleft.run commands
  by_contra hnone
  have hunsubscribed := unsubscribed_run_of_absent hleft.consistent
    (broker.get?_clients_eject client) commands
    fun subscription hsubscribes hsublist =>
      hnone ⟨subscription, hsubscribes, hsublist⟩
  exact not_addresses_of_unsubscribed hlater.consistent hunsubscribed
    (addresses_perform hlater.consistent hlater.listed hmem).1

theorem Reached.deliveries_addressed_resubscribed :
    (let broker := (idle .default ⟨0⟩).run [
      .connect ⟨7⟩,
      .createQueue "jobs" ⟨10, 64, ⟨false, false, false, false⟩⟩,
      .subscribeQueue ⟨7⟩ ⟨1⟩ false, .renameQueue ⟨1⟩ "work"]
    let back := (broker.perform (.eject ⟨7⟩)).state.run
      [.connect ⟨7⟩, .subscribeQueue ⟨7⟩ ⟨1⟩ true]
    (broker.perform (.push ⟨1⟩ ⟨[1], 1⟩ 0)).signals =
        [.deliver ⟨7⟩ (.message "work" ⟨0⟩ ⟨[1], 1⟩)] ∧
      broker.Addresses ⟨7⟩ (.message "work" ⟨0⟩ ⟨[1], 1⟩) ∧
      (back.perform (.push ⟨1⟩ ⟨[2], 2⟩ 0)).signals =
        [.deliver ⟨7⟩ (.notice "work")] ∧
      ∃ subscription : Command, subscription.Subscribes ⟨7⟩ ∧
        [.connect ⟨7⟩, subscription].Sublist
          [.connect ⟨7⟩, .subscribeQueue ⟨7⟩ ⟨1⟩ true]) := by
  intro broker back
  have hidle : Reached 0 (idle .default ⟨0⟩) :=
    .start (start_of_sound (by decide))
  have reached : Reached _ broker := hidle.run _
  obtain ⟨haddressed, hagain⟩ := reached.deliveries_addressed
  have hfirst : (broker.perform (.push ⟨1⟩ ⟨[1], 1⟩ 0)).signals =
      [.deliver ⟨7⟩ (.message "work" ⟨0⟩ ⟨[1], 1⟩)] := by decide
  have hsecond : (back.perform (.push ⟨1⟩ ⟨[2], 2⟩ 0)).signals =
      [.deliver ⟨7⟩ (.notice "work")] := by decide
  have hnotice : .deliver ⟨7⟩ (.notice "work") ∈
      (back.perform (.push ⟨1⟩ ⟨[2], 2⟩ 0)).signals := by
    rw [hsecond]
    exact List.mem_singleton_self _
  refine ⟨hfirst, ?_, hsecond, hagain ⟨7⟩ _ _ _ hnotice⟩
  exact (haddressed _ _ _ (hfirst ▸ List.mem_singleton_self _)).1

end Broker

end MessageBroker
