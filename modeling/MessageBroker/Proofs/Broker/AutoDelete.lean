import MessageBroker.Proofs.Broker.Fading

/-! Automatic deletion is exact: an entity that wishes to go with its last tie
is gone with it, and nothing else goes unless it is deleted on demand. -/

namespace MessageBroker.Broker

variable {broker after : Broker} {takesBack : Entity → Tie → Prop}
  {deletes : Entity → Prop} {client : ClientId}

theorem Fades.of_removed {target : Entity}
    (h : ∀ entity, after.standing? entity =
      if entity = target then none else broker.standing? entity) :
    Fades takesBack (fun entity => entity = target) broker after := by
  intro entity
  rw [h]
  split
  · rename_i hsame
    cases broker.standing? entity with
    | none => exact .absent
    | some standing => exact .deleted hsame standing
  · exact .refl _ _ _

theorem fades_deleteQueue (h : broker.Consistent) (id : QueueId) :
    Fades takesBack (Command.deleteQueue id).Deletes broker
      (broker.deleteQueue id).state := by
  unfold deleteQueue
  split
  · exact .refl broker
  · rename_i queue found
    exact (fades_removeQueue h found).2

theorem fades_deleteRoute (hnumbered : broker.Numbered) (id : RouteId) :
    Fades takesBack (Command.deleteRoute id).Deletes broker
      (broker.deleteRoute id).state := by
  unfold deleteRoute
  split
  · exact .refl broker
  · rename_i route found
    exact .of_removed (standing?_removeRoute hnumbered found)

theorem fades_deleteChannel (hnumbered : broker.Numbered) (id : ChannelId) :
    Fades takesBack (Command.deleteChannel id).Deletes broker
      (broker.deleteChannel id).state := by
  unfold deleteChannel
  split
  · exact .refl broker
  · rename_i channel found
    exact .of_removed (standing?_removeChannel hnumbered found)

theorem fades_flush (broker : Broker) :
    Fades takesBack Command.flush.Deletes broker broker.flush := by
  intro entity
  have hgone : broker.flush.standing? entity = none := by
    cases entity <;> rfl
  rw [hgone]
  cases broker.standing? entity with
  | none => exact .absent
  | some standing => exact .deleted trivial standing

theorem standing?_update_queue {id : QueueId} {change : Queue → Queue}
    {clients : AssocList ClientId ClientLinks} {entity : Entity}
    (hother : entity ≠ .queue id) :
    standing? {
        broker with
        queues := broker.queues.update id change
        clients := clients
      } entity = broker.standing? entity := by
  cases entity with
  | queue other =>
      show ((broker.queues.update id change).find? other).map _ = _
      rw [Registry.find?_update_ne _ fun h => hother (congrArg _ h)]
      rfl
  | route other => rfl
  | channel other => rfl

theorem standing?_update_channel {id : ChannelId} {change : Channel → Channel}
    {clients : AssocList ClientId ClientLinks} {entity : Entity}
    (hother : entity ≠ .channel id) :
    standing? {
        broker with
        channels := broker.channels.update id change
        clients := clients
      } entity = broker.standing? entity := by
  cases entity with
  | channel other =>
      show ((broker.channels.update id change).find? other).map _ = _
      rw [Registry.find?_update_ne _ fun h => hother (congrArg _ h)]
      rfl
  | queue other => rfl
  | route other => rfl

theorem standing?_unsubscribeQueue (hnumbered : broker.Numbered)
    (client : ClientId) (id : QueueId) (entity : Entity) :
    (broker.unsubscribeQueue client id).state.standing? entity =
      broker.standing? entity := by
  rcases unsubscribeQueue_cases hnumbered client id with
    ⟨hsame, -⟩ | ⟨queue, found, hstate⟩
  · rw [hsame]
  · rw [hstate]
    cases entity with
    | queue other =>
        show ((broker.queues.update id _).find? other).map _ = _
        rw [Registry.map_find?_update]
        · rfl
        · exact fun _ => rfl
    | route other => rfl
    | channel other => rfl

theorem fades_undeclareQueue (h : broker.Consistent) (client : ClientId)
    (id : QueueId) :
    Fades (Command.undeclareQueue client id).TakesBack (fun _ => False) broker
      (broker.undeclareQueue client id).state := by
  rcases undeclareQueue_cases h.numbered client id with
    ⟨hsame, -⟩ | ⟨queue, found, hdeclared, hstate⟩
  · rw [hsame]
    exact .refl broker
  · have hmiddle := Withdrawals.consistent (.single (.undeclare client found)) h
    rw [hstate]
    exact (autoDeletes_queue hmiddle id).fades
      (congrArg (Option.map Queue.standing) found)
      (congrArg (Option.map Queue.standing)
        (Registry.find?_update_self found _))
      (fun _ => standing?_update_queue) rfl (fun _ => Queue.mem_ties_undeclare)
      (Queue.mem_ties.mpr ⟨client, hdeclared, rfl⟩) ⟨rfl, rfl⟩

theorem fades_update_channel {id : ChannelId} {channel : Channel} {tie : Tie}
    {change : Channel → Channel} {clients : AssocList ClientId ClientLinks}
    (found : broker.channels.find? id = some channel)
    (hnumbered : Numbered {
      broker with
      channels := broker.channels.update id change
      clients := clients
    })
    (hflags : (change channel).flags = channel.flags)
    (hties : ∀ other, other ∈ (change channel).standing.ties ↔
      other ∈ channel.standing.ties ∧ other ≠ tie)
    (hhad : tie ∈ channel.standing.ties)
    (htakes : takesBack (.channel id) tie) :
    Fades takesBack (fun _ => False) broker (autoDeleteChannel {
      broker with
      channels := broker.channels.update id change
      clients := clients
    } id) := by
  have hgoes := AutoDeletes.of_standings
    (standing?_autoDeleteChannel hnumbered id)
  exact hgoes.fades (congrArg (Option.map Channel.standing) found)
    (congrArg (Option.map Channel.standing)
      (Registry.find?_update_self found change))
    (fun _ => standing?_update_channel)
    (congrArg ChannelFlags.autoDelete hflags) hties hhad htakes

theorem fades_unsubscribeTopic (hnumbered : broker.Numbered)
    (client : ClientId) (id : ChannelId) (topic : String) :
    Fades (Command.unsubscribeTopic client id topic).TakesBack (fun _ => False)
      broker (broker.unsubscribeTopic client id topic).state := by
  rcases unsubscribeTopic_cases hnumbered client id topic with
    ⟨hsame, -⟩ | ⟨channel, found, htopic, hstate⟩
  · rw [hsame]
    exact .refl broker
  · have hmiddle :=
      hnumbered.withdrawal (.unsubscribeTopic client topic found)
    rw [hstate]
    exact fades_update_channel found hmiddle rfl
      (fun _ => Channel.mem_ties_unlinkTopic)
      (Channel.mem_ties.mpr (.inl ⟨topic, client, htopic, rfl⟩)) ⟨rfl, rfl⟩

theorem fades_unsubscribePattern (hnumbered : broker.Numbered)
    (client : ClientId) (id : ChannelId) (pattern : String) :
    Fades (Command.unsubscribePattern client id pattern).TakesBack
      (fun _ => False) broker
      (broker.unsubscribePattern client id pattern).state := by
  rcases unsubscribePattern_cases hnumbered client id pattern with
    ⟨hsame, -⟩ | ⟨channel, found, hpattern, hstate⟩
  · rw [hsame]
    exact .refl broker
  · have hmiddle :=
      hnumbered.withdrawal (.unsubscribePattern client pattern found)
    rw [hstate]
    exact fades_update_channel found hmiddle rfl
      (fun _ => Channel.mem_ties_unlinkPattern)
      (Channel.mem_ties.mpr (.inr ⟨pattern, client, hpattern, rfl⟩)) ⟨rfl, rfl⟩

theorem fades_unbind (hnumbered : broker.Numbered) (id : RouteId)
    (queue : QueueId) (key : String) :
    Fades (Command.unbind id queue key).TakesBack (fun _ => False) broker
      (broker.unbind id queue key).state := by
  unfold unbind
  split
  · exact .refl broker
  · rename_i route found
    split
    · exact .refl broker
    · rename_i next hunbind
      obtain ⟨hbound, rfl⟩ := unbind_eq_ok hunbind
      have hput : broker.routes.put (route.unlink queue key) =
          broker.routes.update id fun route => route.unlink queue key :=
        hnumbered.routes.put_eq_update (fun route => route.unlink queue key)
          found rfl
      have hmiddle := hnumbered.withdrawal (.unbind queue key found)
      simp only [Outcome.state_done, hput]
      refine (AutoDeletes.of_standings
        (standing?_autoDeleteRoute hmiddle id)).fades
        (congrArg (Option.map Route.standing) found)
        (congrArg (Option.map Route.standing)
          (Registry.find?_update_self found _))
        (fun entity hother => ?_) rfl (fun _ => Route.mem_ties_unlink)
        (Route.mem_ties.mpr ⟨key, queue, hbound, rfl⟩) ⟨rfl, rfl⟩
      cases entity with
      | queue other =>
          show ((broker.queues.update queue _).find? other).map _ = _
          rw [Registry.map_find?_update]
          · rfl
          · exact fun _ => rfl
      | route other =>
          exact congrArg (Option.map Route.standing)
            (broker.routes.find?_update_ne
              (fun h => hother (congrArg _ h)) _)
      | channel other => rfl

theorem fades_foldl (takesBack : Entity → Tie → Prop) {σ : Type}
    {step : Broker → σ → Broker} (items : List σ) (h : broker.Consistent)
    (hstep : ∀ (broker : Broker) (item : σ), broker.Consistent →
      Withdrawals broker (step broker item) ∧
        Fades takesBack (fun _ => False) broker (step broker item)) :
    Withdrawals broker (items.foldl step broker) ∧
      Fades takesBack (fun _ => False) broker (items.foldl step broker) := by
  induction items generalizing broker with
  | nil => exact ⟨.refl, .refl broker⟩
  | cons item rest ih =>
      obtain ⟨hfirst, hfades⟩ := hstep broker item h
      obtain ⟨hrest, hfadesRest⟩ := ih (hfirst.consistent h)
      exact ⟨hfirst.trans hrest, hfades.trans hfadesRest⟩

def Declared (broker : Broker) (client : ClientId) (id : QueueId) : Prop :=
  ∀ now, broker.standing? (.queue id) = some now → .declared client ∈ now.ties

theorem Declared.fades {id : QueueId} (h : broker.Declared client id)
    (hfades : Fades takesBack deletes broker after)
    (hkept : ¬ takesBack (.queue id) (.declared client)) :
    after.Declared client id := by
  intro now hnow
  have hfading := hfades (.queue id)
  rw [hnow] at hfading
  obtain ⟨before, hbefore, hloses⟩ := hfading.exists_loses
  refine (hloses.kept (.declared client) (h before hbefore)).resolve_right ?_
  rintro (htaken | ⟨key, queue, hbound, -⟩)
  · exact hkept htaken
  · cases hbound

theorem declared_of_links (h : broker.Consistent) {links : ClientLinks}
    (hlinks : broker.clients.get? client = some links) {id : QueueId}
    (hmem : id ∈ links.declaredQueues.items) : broker.Declared client id := by
  intro now hnow
  obtain ⟨queue, found, hdeclared⟩ :=
    (h.memberships.declared id client).mpr ⟨links, hlinks, hmem⟩
  have hthere : broker.standing? (.queue id) = some queue.standing :=
    congrArg (Option.map Queue.standing) found
  cases hthere.symm.trans hnow
  exact Queue.mem_ties.mpr ⟨client, hdeclared, rfl⟩

/-- The second round of automatic deletion finds nothing to do. -/
theorem fades_undeclareAutoDelete (h : broker.Consistent) {id : QueueId}
    (hdeclared : broker.Declared client id) :
    Fades (Command.undeclareQueue client id).TakesBack (fun _ => False) broker
      ((broker.undeclareQueue client id).state.autoDeleteQueue id) := by
  have hnext := (withdrawals_undeclareQueue h.numbered client id).consistent h
  refine (fades_undeclareQueue h client id).trans
    ((autoDeletes_queue hnext id).fades_of_not_abandoned ?_)
  rcases undeclareQueue_cases h.numbered client id with
    ⟨hsame, -⟩ | ⟨queue, found, -, hstate⟩
  · rw [hsame]
    exact fun habandoned => List.not_mem_nil (hdeclared _ habandoned)
  · have hmiddle := Withdrawals.consistent (.single (.undeclare client found)) h
    rw [hstate]
    exact (autoDeletes_queue hmiddle id).not_abandoned

theorem fades_foldl_undeclare (h : broker.Consistent) {ids : List QueueId}
    (hnodup : ids.Nodup) (hdeclared : ∀ id ∈ ids, broker.Declared client id) :
    Withdrawals broker (ids.foldl (fun broker id =>
        (broker.undeclareQueue client id).state.autoDeleteQueue id) broker) ∧
      Fades (Command.eject client).TakesBack (fun _ => False) broker
        (ids.foldl (fun broker id =>
          (broker.undeclareQueue client id).state.autoDeleteQueue id)
          broker) := by
  induction ids generalizing broker with
  | nil => exact ⟨.refl, .refl broker⟩
  | cons id rest ih =>
      obtain ⟨hnew, hrest⟩ := List.nodup_cons.mp hnodup
      have hfirst := (withdrawals_undeclareAutoDelete h client id).1
      have hfades := fades_undeclareAutoDelete h
        (hdeclared id List.mem_cons_self)
      -- The queues still to come keep their declarations, or are gone.
      have hstill : ∀ other ∈ rest, Declared
          ((broker.undeclareQueue client id).state.autoDeleteQueue id) client
          other := by
        intro other hother
        refine (hdeclared other (List.mem_cons_of_mem _ hother)).fades hfades ?_
        rintro ⟨hsame, -⟩
        cases hsame
        exact hnew hother
      obtain ⟨hlater, hfadesLater⟩ := ih (hfirst.consistent h) hrest hstill
      refine ⟨hfirst.trans hlater, .trans (hfades.mono ?_ fun _ h => h)
        hfadesLater⟩
      rintro entity tie ⟨rfl, rfl⟩
      rfl

theorem fades_leaveAll (h : broker.Consistent) {links : ClientLinks}
    (hlinks : broker.clients.get? client = some links) :
    Fades (Command.eject client).TakesBack (fun _ => False) broker
      (broker.leaveAll client links) := by
  obtain ⟨hfirst, hsubscribed⟩ := fades_foldl (fun _ _ => False)
    links.subscribedQueues.items h fun broker id h =>
      ⟨withdrawals_unsubscribeQueue h.numbered client id,
        .of_same (standing?_unsubscribeQueue h.numbered client id)⟩
  have hunsubscribed := hfirst.consistent h
  obtain ⟨hsecond, hdeclared⟩ := fades_foldl_undeclare hunsubscribed
    links.declaredQueues.nodup_items fun id hmem =>
      (declared_of_links h hlinks hmem).fades hsubscribed not_false
  have hundeclared := hsecond.consistent hunsubscribed
  obtain ⟨hthird, htopics⟩ := fades_foldl (Command.eject client).TakesBack
    links.topics.pairs hundeclared fun broker pair h =>
      ⟨withdrawals_unsubscribeTopic h.numbered client pair.1 pair.2,
        (fades_unsubscribeTopic h.numbered client pair.1 pair.2).mono
          (fun _ _ htaken => htaken.2 ▸ rfl) fun _ h => h⟩
  obtain ⟨-, hpatterns⟩ := fades_foldl (Command.eject client).TakesBack
    links.patterns.pairs (hthird.consistent hundeclared) fun broker pair h =>
      ⟨withdrawals_unsubscribePattern h.numbered client pair.1 pair.2,
        (fades_unsubscribePattern h.numbered client pair.1 pair.2).mono
          (fun _ _ htaken => htaken.2 ▸ rfl) fun _ h => h⟩
  have hunsubscribes : Fades (Command.eject client).TakesBack (fun _ => False)
      broker _ := hsubscribed.mono (fun _ _ => False.elim) fun _ h => h
  exact ((hunsubscribes.trans hdeclared).trans htopics).trans hpatterns

theorem fades_eject (h : broker.Consistent) (client : ClientId) :
    Fades (Command.eject client).TakesBack (fun _ => False) broker
      (broker.eject client).state := by
  unfold eject
  split
  · exact .refl broker
  · rename_i links hlinks
    refine (fades_leaveAll h hlinks).trans (.of_same fun entity => ?_)
    cases entity <;> rfl

theorem fades_perform (h : broker.Consistent) {command : Command}
    (hwithdraws : isWithdrawal command = true) :
    Fades command.TakesBack command.Deletes broker
      (broker.perform command).state := by
  cases command with
  | eject client => exact fades_eject h client
  | deleteQueue queue => exact fades_deleteQueue h queue
  | undeclareQueue client queue => exact fades_undeclareQueue h client queue
  | unsubscribeQueue client queue =>
      exact .of_same (standing?_unsubscribeQueue h.numbered client queue)
  | deleteRoute route => exact fades_deleteRoute h.numbered route
  | unbind route queue key => exact fades_unbind h.numbered route queue key
  | deleteChannel channel => exact fades_deleteChannel h.numbered channel
  | unsubscribeTopic client channel topic =>
      exact fades_unsubscribeTopic h.numbered client channel topic
  | unsubscribePattern client channel pattern =>
      exact fades_unsubscribePattern h.numbered client channel pattern
  | flush => exact fades_flush broker
  | _ => cases hwithdraws

/-- The entity is not one that wishes to go and has no tie. -/
def Guarded (broker : Broker) (entity : Entity) : Prop :=
  ∀ now, broker.standing? entity = some now → now.autoDelete = true →
    now.ties ≠ []

theorem Guarded.fades {entity : Entity} (h : broker.Guarded entity)
    (hfades : Fades takesBack deletes broker after) : after.Guarded entity := by
  intro now hnow hwishes
  have hfading := hfades entity
  rw [hnow] at hfading
  obtain ⟨before, hbefore, hloses⟩ := hfading.exists_loses
  have hwished := hloses.autoDelete.symm.trans hwishes
  exact hloses.tied hwished (h before hbefore hwished)

theorem Guarded.grows {entity : Entity} (h : broker.Guarded entity)
    (hissued : entity.number ≤ broker.lastNumber)
    (hgrows : Grows broker after) : after.Guarded entity := by
  intro now hnow hwishes
  have hgrowing := hgrows.standings entity
  rw [hnow] at hgrowing
  obtain ⟨before, hbefore, hwithin⟩ :=
    hgrowing.exists_within (Nat.not_lt.mpr hissued)
  obtain ⟨tie, hmem⟩ := List.exists_mem_of_ne_nil _
    (h before hbefore (hwithin.autoDelete.symm.trans hwishes))
  exact List.ne_nil_of_mem (hwithin.ties hmem)

theorem Guarded.perform {entity : Entity} (h : broker.Guarded entity)
    (hconsistent : broker.Consistent)
    (hissued : entity.number ≤ broker.lastNumber) (command : Command) :
    entity.number ≤ (broker.perform command).state.lastNumber ∧
      (broker.perform command).state.Guarded entity := by
  by_cases hwithdraws : isWithdrawal command = true
  · have hleft := withdrawals_perform hconsistent hwithdraws
    have hsettles := settles_arrangements hconsistent.numbered
      hleft.arrangements
    exact ⟨Nat.le_trans hissued hsettles.lastNumber,
      h.fades (fades_perform hconsistent hwithdraws)⟩
  · have hgrows := grows_perform hconsistent.numbered
      (Bool.eq_false_iff.mpr hwithdraws)
    exact ⟨Nat.le_trans hissued hgrows.lastNumber, h.grows hissued hgrows⟩

theorem Guarded.run {entity : Entity} (h : broker.Guarded entity)
    (hconsistent : broker.Consistent)
    (hissued : entity.number ≤ broker.lastNumber) (commands : List Command) :
    (broker.run commands).Guarded entity := by
  induction commands generalizing broker with
  | nil => exact h
  | cons command rest ih =>
      obtain ⟨hlater, hnext⟩ := h.perform hconsistent hissued command
      exact ih hnext (hconsistent.edits (edits_perform hconsistent command))
        hlater

theorem Numbered.number_le (h : broker.Numbered) {entity : Entity}
    {standing : Standing} (hthere : broker.standing? entity = some standing) :
    entity.number ≤ broker.lastNumber := by
  cases entity with
  | queue id =>
      obtain ⟨queue, found, -⟩ := Option.map_eq_some_iff.mp hthere
      exact (h.queues id queue found).2
  | route id =>
      obtain ⟨route, found, -⟩ := Option.map_eq_some_iff.mp hthere
      exact (h.routes id route found).2
  | channel id =>
      obtain ⟨channel, found, -⟩ := Option.map_eq_some_iff.mp hthere
      exact (h.channels id channel found).2

structure AutoDeletesExactly (broker : Broker) : Prop where
  /-- What wishes to go with its last tie, and has ever had one, has one. -/
  tied : ∀ commands entity before now,
    broker.standing? entity = some before → before.ties ≠ [] →
    (broker.run commands).standing? entity = some now →
    now.autoDelete = true → now.ties ≠ []
  /-- Nothing goes but on demand or by itself, with its last tie. -/
  goes : ∀ command entity before, broker.standing? entity = some before →
    (broker.perform command).state.standing? entity = none →
    command.Deletes entity ∨
      before.GoesByItself
        (Severed command.TakesBack (broker.perform command).state entity)

theorem Reached.autoDeletesExactly {stamps : Nat}
    (reached : Reached stamps broker) : broker.AutoDeletesExactly := by
  have h := reached.consistent
  constructor
  case tied =>
    intro commands entity before now hbefore htied hnow hwishes
    have hguarded : broker.Guarded entity := by
      intro standing hstanding _
      cases hbefore.symm.trans hstanding
      exact htied
    have hissued := h.numbered.number_le hbefore
    exact hguarded.run h hissued commands now hnow hwishes
  case goes =>
    intro command entity before hbefore hgone
    by_cases hwithdraws : isWithdrawal command = true
    · have hfading := fades_perform h hwithdraws entity
      rw [hbefore, hgone] at hfading
      cases hfading with
      | goes hgoes => exact .inr hgoes
      | deleted hdeleted => exact .inl hdeleted
    · have hgrowing := (grows_perform h.numbered
        (Bool.eq_false_iff.mpr hwithdraws)).standings entity
      rw [hbefore, hgone] at hgrowing
      cases hgrowing

theorem Reached.autoDeletesExactly_cascade :
    (let broker := (idle .default ⟨0⟩).run [
      .connect ⟨7⟩,
      .createQueue "jobs" ⟨10, 64, ⟨true, false, false, false⟩⟩,
      .createRoute "work" ⟨true, false, false⟩,
      .declareQueue ⟨7⟩ ⟨1⟩, .bind ⟨2⟩ ⟨1⟩ "urgent"]
    let left := (broker.perform (.eject ⟨7⟩)).state
    let standing : Standing := ⟨true, [.bound "urgent" ⟨1⟩]⟩
    broker.standing? (.route ⟨2⟩) = some standing ∧
      left.standing? (.route ⟨2⟩) = none ∧
      standing.GoesByItself (Severed (Command.eject ⟨7⟩).TakesBack left
        (.route ⟨2⟩))) := by
  intro broker left standing
  have hidle : Reached 0 (idle .default ⟨0⟩) :=
    .start (start_of_sound (by decide))
  have reached : Reached _ broker := hidle.run _
  refine ⟨rfl, rfl, ?_⟩
  exact (reached.autoDeletesExactly.goes (.eject ⟨7⟩) (.route ⟨2⟩) standing rfl
    rfl).resolve_left id

end MessageBroker.Broker
