import MessageBroker.Proofs.Broker.Ejection

/-! Every operation is a run of edits. -/

namespace MessageBroker.Broker

variable {broker : Broker}

def pushStamps (broker : Broker) (id : QueueId) (payload : Payload)
    (timeToLive : UInt32) : Nat :=
  match (broker.push id payload timeToLive).result with
  | .ok _ => 1
  | .error _ => 0

/-- A publish stamps one tag for each target that accepts. -/
def Fanout.stamps (payload : Payload) (timeToLive : UInt32) :
    Fanout → List QueueId → Nat
  | _, [] => 0
  | fanout, target :: rest =>
      fanout.broker.pushStamps target payload timeToLive +
        stamps payload timeToLive (fanout.next payload timeToLive target) rest

def stamps (broker : Broker) : Command → Nat
  | .push id payload timeToLive => broker.pushStamps id payload timeToLive
  | .publishRoute id key payload timeToLive =>
      match broker.routes.find? id with
      | none => 0
      | some route =>
          match route.targets key with
          | .error _ => 0
          | .ok (targets, route) =>
              Fanout.stamps payload timeToLive
                ⟨broker.putRoute route, 0, []⟩ targets
  | _ => 0

theorem extension_createQueue (broker : Broker) (name : String)
    (settings : QueueSettings) :
    Extension broker (broker.createQueue name settings).state := by
  unfold createQueue
  split
  · exact .refl
  · rename_i hvalid
    split
    · exact .refl
    · rename_i hfresh
      split
      · exact .refl
      · rename_i hsound
        exact .enrol (.addQueue (by simpa using hvalid) (by simpa using hfresh)
          hsound)

theorem extension_createRoute (broker : Broker) (name : String)
    (flags : RouteFlags) :
    Extension broker (broker.createRoute name flags).state := by
  unfold createRoute
  split
  · exact .refl
  · rename_i hvalid
    split
    · exact .refl
    · rename_i hfresh
      exact .enrol (.addRoute (by simpa using hvalid) (by simpa using hfresh))

theorem extension_createChannel (broker : Broker) (name : String)
    (flags : ChannelFlags) :
    Extension broker (broker.createChannel name flags).state := by
  unfold createChannel
  split
  · exact .refl
  · rename_i hvalid
    split
    · exact .refl
    · rename_i hfresh
      exact .enrol (.addChannel (by simpa using hvalid) (by simpa using hfresh))

theorem extension_renameQueue (broker : Broker) (id : QueueId) (name : String) :
    Extension broker (broker.renameQueue id name).state := by
  unfold renameQueue
  split
  · exact .refl
  · rename_i hvalid
    split
    · exact .refl
    · rename_i hfresh
      split
      · exact .refl
      · rename_i queue found
        exact .renameQueue found (by simpa using hvalid)
          (by simpa using hfresh)

theorem extension_renameRoute (broker : Broker) (id : RouteId) (name : String) :
    Extension broker (broker.renameRoute id name).state := by
  unfold renameRoute
  split
  · exact .refl
  · rename_i hvalid
    split
    · exact .refl
    · rename_i hfresh
      split
      · exact .refl
      · rename_i route found
        exact .renameRoute found (by simpa using hvalid)
          (by simpa using hfresh)

theorem extension_renameChannel (broker : Broker) (id : ChannelId) (name : String) :
    Extension broker (broker.renameChannel id name).state := by
  unfold renameChannel
  split
  · exact .refl
  · rename_i hvalid
    split
    · exact .refl
    · rename_i hfresh
      split
      · exact .refl
      · rename_i channel found
        exact .renameChannel found (by simpa using hvalid)
          (by simpa using hfresh)

theorem extension_connect (broker : Broker) (client : ClientId) :
    Extension broker (broker.connect client).state := by
  unfold connect
  split
  · exact .refl
  · rename_i hfresh
    exact .enrol (.connect (by simpa [AssocList.contains] using hfresh))

theorem extension_declareQueue (hnumbered : broker.Numbered) (client : ClientId)
    (id : QueueId) : Extension broker (broker.declareQueue client id).state := by
  unfold declareQueue
  split
  · exact .refl
  · rename_i hconnected
    split
    · exact .refl
    · rename_i queue found
      split
      · exact .refl
      · have hput : broker.queues.put (queue.declare client) =
            broker.queues.update id fun queue => queue.declare client :=
          hnumbered.queues.put_eq_update (fun queue => queue.declare client)
            found rfl
        simp only [Outcome.state_done, putQueue, modifyLinks, hput]
        exact .enrol (.declare (by simpa using hconnected) found)

theorem id_subscribe (queue : Queue) (client : ClientId) (noticesOnly : Bool) :
    (queue.subscribe client noticesOnly).id = queue.id := by
  unfold Queue.subscribe
  split <;> rfl

theorem extension_subscribeQueue (hnumbered : broker.Numbered) (client : ClientId)
    (id : QueueId) (noticesOnly : Bool) :
    Extension broker (broker.subscribeQueue client id noticesOnly).state := by
  unfold subscribeQueue
  split
  · exact .refl
  · rename_i hconnected
    split
    · exact .refl
    · rename_i queue found
      have hput : broker.queues.put (queue.subscribe client noticesOnly) =
          broker.queues.update id fun queue =>
            queue.subscribe client noticesOnly :=
        hnumbered.queues.put_eq_update
          (fun queue => queue.subscribe client noticesOnly) found
          (id_subscribe queue client noticesOnly)
      simp only [Outcome.state_done, putQueue, modifyLinks, hput]
      exact .enrol (.subscribe noticesOnly (by simpa using hconnected) found)

theorem extension_bind (hnumbered : broker.Numbered) (id : RouteId)
    (queue : QueueId) (key : String) :
    Extension broker (broker.bind id queue key).state := by
  unfold bind
  split
  · exact .refl
  · rename_i route foundRoute
    split
    · exact .refl
    · rename_i target foundQueue
      split
      · exact .refl
      · have hroute : broker.routes.put (route.bind queue key) =
            broker.routes.update id fun route => route.bind queue key :=
          hnumbered.routes.put_eq_update (fun route => route.bind queue key)
            foundRoute rfl
        have hqueue : broker.queues.put (target.linkRoute id key) =
            broker.queues.update queue fun target => target.linkRoute id key :=
          hnumbered.queues.put_eq_update (fun target => target.linkRoute id key)
            foundQueue rfl
        simp only [Outcome.state_done, hroute, hqueue]
        exact .enrol (.bind key foundRoute foundQueue)

theorem extension_subscribeTopic (hnumbered : broker.Numbered) (client : ClientId)
    (id : ChannelId) (topic : String) :
    Extension broker (broker.subscribeTopic client id topic).state := by
  unfold subscribeTopic
  split
  · exact .refl
  · rename_i hconnected
    split
    · exact .refl
    · rename_i channel found
      split
      · exact .refl
      · have hput : broker.channels.put (channel.subscribeTopic client topic) =
            broker.channels.update id fun channel =>
              channel.subscribeTopic client topic :=
          hnumbered.channels.put_eq_update
            (fun channel => channel.subscribeTopic client topic) found rfl
        simp only [Outcome.state_done, putChannel, modifyLinks, hput]
        exact .enrol (.subscribeTopic topic (by simpa using hconnected) found)

theorem extension_subscribePattern (hnumbered : broker.Numbered) (client : ClientId)
    (id : ChannelId) (pattern : String) :
    Extension broker (broker.subscribePattern client id pattern).state := by
  unfold subscribePattern
  split
  · exact .refl
  · rename_i hconnected
    split
    · exact .refl
    · rename_i channel found
      split
      · exact .refl
      · have hput :
            broker.channels.put (channel.subscribePattern client pattern) =
              broker.channels.update id fun channel =>
                channel.subscribePattern client pattern :=
          hnumbered.channels.put_eq_update
            (fun channel => channel.subscribePattern client pattern) found rfl
        simp only [Outcome.state_done, putChannel, modifyLinks, hput]
        exact .enrol (.subscribePattern pattern (by simpa using hconnected)
          found)

/-- A queue that has been turned is put back under its identifier. -/
theorem edits_turnQueue (hnumbered : broker.Numbered) {id : QueueId}
    {queue next : Queue} {stamps : Nat}
    (found : broker.queues.find? id = some queue)
    (turn : queue.Turn broker.clock stamps next) :
    Edits broker stamps {
      broker.putQueue next with
      clock := (broker.clock.nextTags stamps).2
    } := by
  have hput : broker.queues.put next = broker.queues.update id fun _ => next :=
    hnumbered.queues.put_eq_update (fun _ => next) found turn.sameMembers.id
  simp only [putQueue, hput]
  exact .move (.turnQueue found turn)

theorem edits_push (hnumbered : broker.Numbered) (id : QueueId)
    (payload : Payload) (timeToLive : UInt32) :
    Edits broker (broker.pushStamps id payload timeToLive)
      (broker.push id payload timeToLive).state := by
  unfold pushStamps push
  cases found : broker.queues.find? id with
  | none => exact .refl
  | some queue =>
      simp only [Outcome.lift]
      cases hresult : (queue.push broker.clock payload timeToLive).result with
      | ok done =>
          rw [Queue.push_clock_of_ok hresult]
          exact edits_turnQueue hnumbered found (.push payload timeToLive hresult)
      | error rejection =>
          rw [Queue.push_clock_of_error hresult]
          exact edits_turnQueue hnumbered found
            (.refuse payload timeToLive rejection hresult)

theorem edits_pop (hnumbered : broker.Numbered) (id : QueueId)
    (holdTime : UInt32) : Edits broker 0 (broker.pop id holdTime).state := by
  unfold pop
  split
  · exact .refl
  · rename_i queue found
    exact edits_turnQueue hnumbered found (.pop holdTime)

theorem edits_confirm (hnumbered : broker.Numbered) (id : QueueId) (tag : Tag) :
    Edits broker 0 (broker.confirm id tag).state := by
  unfold confirm
  split
  · exact .refl
  · rename_i queue found
    split
    · exact .refl
    · rename_i next confirmed
      exact edits_turnQueue hnumbered found (.confirm confirmed)

theorem edits_purge (hnumbered : broker.Numbered) (id : QueueId) :
    Edits broker 0 (broker.purge id).state := by
  unfold purge
  split
  · exact .refl
  · rename_i queue found
    exact edits_turnQueue hnumbered found .purge

theorem id_advanced (channel : Channel) (topic : String) :
    (channel.advanced topic).id = channel.id := by
  unfold Channel.advanced
  split <;> rfl

theorem edits_fanout (fanout : Fanout) (hnumbered : fanout.broker.Numbered)
    (payload : Payload) (timeToLive : UInt32) (targets : List QueueId) :
    Edits fanout.broker (Fanout.stamps payload timeToLive fanout targets)
      (targets.foldl (Fanout.next payload timeToLive) fanout).broker := by
  induction targets generalizing fanout with
  | nil => exact .refl
  | cons target rest ih =>
      have hpush := edits_push hnumbered target payload timeToLive
      exact hpush.trans
        (ih (fanout.next payload timeToLive target) (hnumbered.edits hpush))

theorem targets_eq_ok {route next : Route} {key : String}
    {targets : List QueueId} (htargets : route.targets key = .ok (targets, next)) :
    next = route ∨ next = route.rotate key := by
  unfold Route.targets at htargets
  split at htargets
  · cases htargets
  · split at htargets
    · cases htargets
      exact .inr rfl
    · cases htargets
      exact .inl rfl

theorem gains_putTargets (hnumbered : broker.Numbered) {id : RouteId}
    {route next : Route} {key : String} {targets : List QueueId}
    (found : broker.routes.find? id = some route)
    (htargets : route.targets key = .ok (targets, next)) :
    Gains broker (broker.putRoute next) := by
  unfold putRoute
  rcases targets_eq_ok htargets with hnext | hnext
  · rw [hnext, hnumbered.routes.put_self found]
  · have hput : broker.routes.put (route.rotate key) =
        broker.routes.update id fun route => route.rotate key :=
      hnumbered.routes.put_eq_update (fun route => route.rotate key) found rfl
    rw [hnext, hput]
    exact .keepUp (.rotateRoute id key)

theorem edits_publishRoute (hnumbered : broker.Numbered) (id : RouteId)
    (key : String) (payload : Payload) (timeToLive : UInt32) :
    Edits broker (broker.stamps (.publishRoute id key payload timeToLive))
      (broker.publishRoute id key payload timeToLive).state := by
  simp only [stamps, publishRoute]
  cases found : broker.routes.find? id with
  | none => exact .refl
  | some route =>
      cases htargets : route.targets key with
      | error failure =>
          simp only [htargets]
          exact .refl
      | ok chosen =>
          obtain ⟨targets, next⟩ := chosen
          simp only [htargets]
          have hput :=
            (gains_putTargets hnumbered found htargets).arrangements
          have hfanout := edits_fanout ⟨broker.putRoute next, 0, []⟩
            (hnumbered.edits hput.edits) payload timeToLive targets
          have hall := hput.edits.trans hfanout
          rw [Nat.zero_add] at hall
          exact hall

/-- A publish to a topic passes the turn on, or it is refused. -/
theorem publishChannel_cases (hnumbered : broker.Numbered) (id : ChannelId)
    (topic : String) (payload : Payload) :
    (broker.publishChannel id topic payload).state = broker ∨
      (broker.publishChannel id topic payload).state = {
        broker with
        channels := broker.channels.update id fun channel =>
          channel.advanced topic
      } := by
  unfold publishChannel Channel.publish
  split
  · exact .inl rfl
  · rename_i channel found
    split
    · have hput := hnumbered.channels.put_self found
      left
      simp only [Outcome.lift, Outcome.refused, putChannel, hput]
    · have hput : broker.channels.put (channel.advanced topic) =
          broker.channels.update id fun channel => channel.advanced topic :=
        hnumbered.channels.put_eq_update
          (fun channel => channel.advanced topic) found
          (id_advanced channel topic)
      right
      simp only [Outcome.lift, putChannel, hput]

theorem gains_publishChannel (hnumbered : broker.Numbered)
    (id : ChannelId) (topic : String) (payload : Payload) :
    Gains broker (broker.publishChannel id topic payload).state := by
  rcases publishChannel_cases hnumbered id topic payload with hstate | hstate
  · rw [hstate]
  · rw [hstate]
    exact .keepUp (.rotateChannel id topic)

def isTraffic : Command → Bool
  | .push .. | .pop .. | .confirm .. | .purge _ | .publishRoute .. | .tick _ =>
      true
  | _ => false

def isWithdrawal : Command → Bool
  | .eject _ | .deleteQueue _ | .undeclareQueue .. | .unsubscribeQueue ..
  | .deleteRoute _ | .unbind .. | .deleteChannel _ | .unsubscribeTopic ..
  | .unsubscribePattern .. | .flush => true
  | _ => false

theorem extension_perform (hnumbered : broker.Numbered) {command : Command}
    (hquiet : isTraffic command = false)
    (hkeeps : isWithdrawal command = false)
    (hsilent : ∀ id topic payload,
      command ≠ .publishChannel id topic payload) :
    Extension broker (broker.perform command).state := by
  cases command with
  | connect client => exact extension_connect broker client
  | createQueue name settings =>
      exact extension_createQueue broker name settings
  | renameQueue queue name => exact extension_renameQueue broker queue name
  | declareQueue client queue =>
      exact extension_declareQueue hnumbered client queue
  | subscribeQueue client queue noticesOnly =>
      exact extension_subscribeQueue hnumbered client queue noticesOnly
  | peek queue => exact .refl
  | createRoute name flags => exact extension_createRoute broker name flags
  | renameRoute route name => exact extension_renameRoute broker route name
  | bind route queue key => exact extension_bind hnumbered route queue key
  | createChannel name flags => exact extension_createChannel broker name flags
  | renameChannel channel name =>
      exact extension_renameChannel broker channel name
  | subscribeTopic client channel topic =>
      exact extension_subscribeTopic hnumbered client channel topic
  | subscribePattern client channel pattern =>
      exact extension_subscribePattern hnumbered client channel pattern
  | publishChannel channel topic payload =>
      exact absurd rfl (hsilent channel topic payload)
  | push | pop | confirm | purge | publishRoute | tick => cases hquiet
  | eject | deleteQueue | undeclareQueue | unsubscribeQueue | deleteRoute
  | unbind | deleteChannel | unsubscribeTopic | unsubscribePattern | flush =>
      cases hkeeps

theorem gains_perform (hnumbered : broker.Numbered) {command : Command}
    (hquiet : isTraffic command = false)
    (hkeeps : isWithdrawal command = false) :
    Gains broker (broker.perform command).state := by
  cases command with
  | publishChannel channel topic payload =>
      exact gains_publishChannel hnumbered channel topic payload
  | _ => exact (extension_perform hnumbered hquiet hkeeps nofun).gains

theorem withdrawals_perform (h : broker.Consistent) {command : Command}
    (hwithdraws : isWithdrawal command = true) :
    Withdrawals broker (broker.perform command).state := by
  cases command with
  | eject client => exact withdrawals_eject h client
  | deleteQueue queue => exact withdrawals_deleteQueue h.numbered queue
  | undeclareQueue client queue =>
      exact withdrawals_undeclareQueue h.numbered client queue
  | unsubscribeQueue client queue =>
      exact withdrawals_unsubscribeQueue h.numbered client queue
  | deleteRoute route => exact withdrawals_deleteRoute broker route
  | unbind route queue key =>
      exact withdrawals_unbind h.numbered route queue key
  | deleteChannel channel => exact withdrawals_deleteChannel broker channel
  | unsubscribeTopic client channel topic =>
      exact withdrawals_unsubscribeTopic h.numbered client channel topic
  | unsubscribePattern client channel pattern =>
      exact withdrawals_unsubscribePattern h.numbered client channel pattern
  | flush => exact .single .flush
  | _ => cases hwithdraws

theorem arrangements_perform (h : broker.Consistent) {command : Command}
    (hquiet : isTraffic command = false) :
    Arrangements broker (broker.perform command).state := by
  by_cases hwithdraws : isWithdrawal command = true
  · exact (withdrawals_perform h hwithdraws).arrangements
  · exact (gains_perform h.numbered hquiet
      (Bool.eq_false_iff.mpr hwithdraws)).arrangements

theorem edits_perform (h : broker.Consistent) (command : Command) :
    Edits broker (broker.stamps command) (broker.perform command).state := by
  cases command with
  | push queue payload timeToLive =>
      exact edits_push h.numbered queue payload timeToLive
  | pop queue holdTime => exact edits_pop h.numbered queue holdTime
  | confirm queue tag => exact edits_confirm h.numbered queue tag
  | purge queue => exact edits_purge h.numbered queue
  | publishRoute route key payload timeToLive =>
      exact edits_publishRoute h.numbered route key payload timeToLive
  | tick now => exact .move (.tick now)
  | _ => exact Arrangements.edits (arrangements_perform h rfl)

end MessageBroker.Broker
