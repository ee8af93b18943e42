import MessageBroker.Proofs.Broker.Settling
import MessageBroker.Proofs.Broker.Steps

/-! Which commands may remove a queue: a deletion, a flush, or one by which a
client that declared the queue lets go of it, where the queue wishes so. -/

namespace MessageBroker

def Queue.mayGo (queue : Queue) : Command → Prop
  | .deleteQueue id => id = queue.id
  | .undeclareQueue _ id =>
      id = queue.id ∧ queue.settings.flags.autoDelete = true
  | .eject client =>
      queue.isDeclared client = true ∧ queue.settings.flags.autoDelete = true
  | .flush => True
  | _ => False

namespace Broker

def Houses (broker : Broker) (id : QueueId) (settings : QueueSettings) : Prop :=
  ∃ queue, broker.queues.find? id = some queue ∧ queue.settings = settings

variable {broker after : Broker} {id other : QueueId} {settings : QueueSettings}

namespace Houses

theorem congr (h : broker.Houses id settings)
    (hqueues : after.queues = broker.queues) : after.Houses id settings := by
  unfold Houses
  rw [hqueues]
  exact h

theorem update (h : broker.Houses id settings) (change : Queue → Queue)
    (hchange : ∀ queue, (change queue).settings = queue.settings)
    (hqueues : after.queues = broker.queues.update other change) :
    after.Houses id settings := by
  obtain ⟨queue, found, hsettings⟩ := h
  unfold Houses
  rw [hqueues, Registry.find?_update, found]
  split
  · exact ⟨change queue, rfl, (hchange queue).trans hsettings⟩
  · exact ⟨queue, rfl, hsettings⟩

theorem put (h : broker.Houses id settings) (hnumbered : broker.Numbered)
    {queue next : Queue} (found : broker.queues.find? other = some queue)
    (hid : next.id = queue.id) (hsettings : next.settings = queue.settings)
    (hqueues : after.queues = broker.queues.put next) :
    after.Houses id settings := by
  obtain ⟨held, hheld, hold⟩ := h
  have hfind := hnumbered.queues.find?_put found hid id
  unfold Houses
  rw [hqueues, hfind]
  split
  · rename_i hsame
    rw [← hsame, hheld] at found
    cases found
    exact ⟨next, rfl, hsettings.trans hold⟩
  · exact ⟨held, hheld, hold⟩

theorem add (h : broker.Houses id settings) (hnumbered : broker.Numbered)
    (queue : Queue) (hid : queue.id = ⟨broker.lastNumber + 1⟩)
    (hqueues : after.queues = broker.queues.add queue) :
    after.Houses id settings := by
  obtain ⟨held, hheld, hold⟩ := h
  unfold Houses
  rw [hqueues, Registry.find?_add]
  split
  · rename_i hsame
    have hnew : id = ⟨broker.lastNumber + 1⟩ := hsame.trans hid
    rw [hnew, hnumbered.freshQueue] at hheld
    cases hheld
  · exact ⟨held, hheld, hold⟩

theorem erase (h : broker.Houses id settings) {queue : Queue}
    (hother : id ≠ queue.id)
    (hqueues : after.queues = broker.queues.erase queue) :
    after.Houses id settings := by
  obtain ⟨held, hheld, hold⟩ := h
  have hkept : (broker.queues.erase queue).find? id = some held :=
    (Registry.find?_erase _ _ _).trans ((if_neg hother).trans hheld)
  exact ⟨held, hqueues ▸ hkept, hold⟩

theorem rename (h : broker.Houses id settings) (hnumbered : broker.Numbered)
    {queue : Queue} (found : broker.queues.find? other = some queue)
    {name : String} (hqueues : after.queues = broker.queues.rename queue name) :
    after.Houses id settings := by
  have hid : queue.id = other := hnumbered.queues.id_eq found
  obtain ⟨held, hheld, hold⟩ := h
  unfold Houses
  rw [hqueues, Registry.find?_rename]
  split
  · rename_i hsame
    have hsame : id = other := hsame.trans hid
    rw [hsame, found] at hheld
    cases hheld
    rw [hsame, found]
    exact ⟨queue.rename name, rfl, hold⟩
  · exact ⟨held, hheld, hold⟩

theorem removeRoute (h : broker.Houses id settings) (route : Route) :
    (broker.removeRoute route).Houses id settings := by
  unfold Broker.removeRoute
  apply List.foldlRecOn (motive := fun queues : Registry QueueId Queue =>
    Houses { broker.removeRoute route with queues := queues } id settings)
  · exact h.congr rfl
  · intro queues hqueues binding _
    exact hqueues.update
      (fun entry => entry.unlinkRoute route.id binding.1) (fun _ => rfl) rfl

theorem autoDeleteRoute (h : broker.Houses id settings) (route : RouteId) :
    (broker.autoDeleteRoute route).Houses id settings := by
  unfold Broker.autoDeleteRoute
  split
  · exact h
  · split
    · exact h.removeRoute _
    · exact h

theorem removeQueue (h : broker.Houses id settings) {queue : Queue}
    (hother : id ≠ queue.id) : (broker.removeQueue queue).Houses id settings := by
  unfold Broker.removeQueue
  apply List.foldlRecOn (motive := fun broker => Houses broker id settings)
  · exact h.erase hother rfl
  · exact fun middle hmiddle route _ => hmiddle.autoDeleteRoute route

theorem autoDeleteQueue (h : broker.Houses id settings)
    (hnumbered : broker.Numbered)
    (hstays : other = id → settings.flags.autoDelete = false) :
    (broker.autoDeleteQueue other).Houses id settings := by
  unfold Broker.autoDeleteQueue
  split
  · exact h
  · rename_i queue found
    split
    · rename_i hwishes
      refine h.removeQueue ?_
      rintro rfl
      have hid : queue.id = other := hnumbered.queues.id_eq found
      obtain ⟨held, hheld, rfl⟩ := h
      rw [hid, found] at hheld
      cases hheld
      simp [hstays hid.symm] at hwishes
    · exact h

theorem autoDeleteChannel (h : broker.Houses id settings) (channel : ChannelId) :
    (broker.autoDeleteChannel channel).Houses id settings := by
  unfold Broker.autoDeleteChannel
  split
  · exact h
  · split
    · exact h.congr rfl
    · exact h

theorem createQueue (h : broker.Houses id settings) (hnumbered : broker.Numbered)
    (name : String) (chosen : QueueSettings) :
    (broker.createQueue name chosen).state.Houses id settings := by
  unfold Broker.createQueue
  split
  · exact h
  · split
    · exact h
    · split
      · exact h
      · exact h.add hnumbered (.create _ name chosen _) rfl rfl

theorem renameQueue (h : broker.Houses id settings) (hnumbered : broker.Numbered)
    (target : QueueId) (name : String) :
    (broker.renameQueue target name).state.Houses id settings := by
  unfold Broker.renameQueue
  split
  · exact h
  · split
    · exact h
    · split
      · exact h
      · rename_i queue found
        exact h.rename hnumbered found rfl

theorem declareQueue (h : broker.Houses id settings)
    (hnumbered : broker.Numbered) (client : ClientId) (target : QueueId) :
    (broker.declareQueue client target).state.Houses id settings := by
  unfold Broker.declareQueue
  split
  · exact h
  · split
    · exact h
    · rename_i queue found
      split
      · exact h
      · exact Houses.put h hnumbered found
          (show (queue.declare client).id = queue.id from rfl) rfl rfl

theorem subscribeQueue (h : broker.Houses id settings)
    (hnumbered : broker.Numbered) (client : ClientId) (target : QueueId)
    (noticesOnly : Bool) :
    (broker.subscribeQueue client target noticesOnly).state.Houses id
      settings := by
  unfold Broker.subscribeQueue
  split
  · exact h
  · split
    · exact h
    · rename_i queue found
      exact Houses.put h hnumbered found (id_subscribe queue client noticesOnly)
        (queue.sameContents_subscribe client noticesOnly).settings rfl

theorem unsubscribeQueue (h : broker.Houses id settings)
    (hnumbered : broker.Numbered) (client : ClientId) (target : QueueId) :
    (broker.unsubscribeQueue client target).state.Houses id settings := by
  rcases unsubscribeQueue_cases hnumbered client target with
    ⟨hsame, -⟩ | ⟨queue, found, hstate⟩
  · rw [hsame]
    exact h
  · rw [hstate]
    exact h.update (fun queue => queue.unsubscribe client) (fun _ => rfl) rfl

theorem bind (h : broker.Houses id settings) (hnumbered : broker.Numbered)
    (route : RouteId) (target : QueueId) (key : String) :
    (broker.bind route target key).state.Houses id settings := by
  unfold Broker.bind
  split
  · exact h
  · split
    · exact h
    · rename_i queue found
      split
      · exact h
      · exact Houses.put h hnumbered found
          (show (queue.linkRoute route key).id = queue.id from rfl) rfl rfl

theorem unbind (h : broker.Houses id settings) (route : RouteId)
    (target : QueueId) (key : String) :
    (broker.unbind route target key).state.Houses id settings := by
  unfold Broker.unbind
  split
  · exact h
  · split
    · exact h
    · rename_i next _
      exact Houses.autoDeleteRoute (h.update
        (fun queue => queue.unlinkRoute route key) (fun _ => rfl) rfl) route

theorem deleteRoute (h : broker.Houses id settings) (route : RouteId) :
    (broker.deleteRoute route).state.Houses id settings := by
  unfold Broker.deleteRoute
  split
  · exact h
  · exact h.removeRoute _

theorem unsubscribeTopic (h : broker.Houses id settings)
    (hnumbered : broker.Numbered) (client : ClientId) (channel : ChannelId)
    (topic : String) :
    (broker.unsubscribeTopic client channel topic).state.Houses id settings := by
  rcases unsubscribeTopic_cases hnumbered client channel topic with
    ⟨hsame, -⟩ | ⟨entry, found, -, hstate⟩
  · rw [hsame]
    exact h
  · rw [hstate]
    apply Houses.autoDeleteChannel
    exact h.congr rfl

theorem unsubscribePattern (h : broker.Houses id settings)
    (hnumbered : broker.Numbered) (client : ClientId) (channel : ChannelId)
    (pattern : String) :
    (broker.unsubscribePattern client channel pattern).state.Houses id
      settings := by
  rcases unsubscribePattern_cases hnumbered client channel pattern with
    ⟨hsame, -⟩ | ⟨entry, found, -, hstate⟩
  · rw [hsame]
    exact h
  · rw [hstate]
    apply Houses.autoDeleteChannel
    exact h.congr rfl

theorem deleteQueue (h : broker.Houses id settings)
    (hnumbered : broker.Numbered) (hother : id ≠ other) :
    (broker.deleteQueue other).state.Houses id settings := by
  unfold Broker.deleteQueue
  split
  · exact h
  · rename_i queue found
    refine h.removeQueue ?_
    rw [show queue.id = other from hnumbered.queues.id_eq found]
    exact hother

theorem undeclareQueue (h : broker.Houses id settings)
    (hnumbered : broker.Numbered) (client : ClientId)
    (hstays : other = id → settings.flags.autoDelete = false) :
    (broker.undeclareQueue client other).state.Houses id settings := by
  rcases undeclareQueue_cases hnumbered client other with
    ⟨hsame, -⟩ | ⟨queue, found, -, hstate⟩
  · rw [hsame]
    exact h
  · rw [hstate]
    exact Houses.autoDeleteQueue
      (h.update (fun queue => queue.undeclare client) (fun _ => rfl) rfl)
      (hnumbered.withdrawal (.undeclare client found)) hstays

theorem foldl {σ : Type u} {step : Broker → σ → Broker} {items : List σ}
    (h : broker.Houses id settings) (hnumbered : broker.Numbered)
    (hstep : ∀ (broker : Broker) (item : σ), item ∈ items → broker.Numbered →
      broker.Houses id settings →
      (step broker item).Numbered ∧ (step broker item).Houses id settings) :
    (items.foldl step broker).Numbered ∧
      (items.foldl step broker).Houses id settings := by
  refine List.foldlRecOn items step
    (motive := fun middle => middle.Numbered ∧ middle.Houses id settings)
    ⟨hnumbered, h⟩ ?_
  intro middle hmiddle item hmem
  exact hstep middle item hmem hmiddle.1 hmiddle.2

theorem leaveAll (h : broker.Houses id settings) (hnumbered : broker.Numbered)
    (client : ClientId) (links : ClientLinks)
    (hstays : id ∈ links.declaredQueues.items →
      settings.flags.autoDelete = false) :
    (broker.leaveAll client links).Houses id settings := by
  obtain ⟨hfirst, hunsubscribed⟩ := h.foldl hnumbered
    fun broker queue (_ : queue ∈ links.subscribedQueues.items) hnumbered h =>
      ⟨(withdrawals_unsubscribeQueue hnumbered client queue).numbered hnumbered,
        h.unsubscribeQueue hnumbered client queue⟩
  obtain ⟨hsecond, hundeclared⟩ := hunsubscribed.foldl hfirst
    fun broker queue (hmem : queue ∈ links.declaredQueues.items) hnumbered h => by
      have hleft :=
        (withdrawals_undeclareQueue hnumbered client queue).numbered hnumbered
      have hkept : queue = id → settings.flags.autoDelete = false :=
        fun hqueue => hstays (hqueue ▸ hmem)
      exact ⟨(withdrawals_autoDeleteQueue hleft queue).numbered hleft,
        (h.undeclareQueue hnumbered client hkept).autoDeleteQueue hleft hkept⟩
  obtain ⟨hthird, hsilent⟩ := hundeclared.foldl hsecond
    fun broker pair (_ : pair ∈ links.topics.pairs) hnumbered h =>
      ⟨(withdrawals_unsubscribeTopic hnumbered client pair.1
          pair.2).numbered hnumbered,
        h.unsubscribeTopic hnumbered client pair.1 pair.2⟩
  exact (hsilent.foldl hthird
    fun broker pair (_ : pair ∈ links.patterns.pairs) hnumbered h =>
      ⟨(withdrawals_unsubscribePattern hnumbered client pair.1
          pair.2).numbered hnumbered,
        h.unsubscribePattern hnumbered client pair.1 pair.2⟩).2

end Houses

/-- A queue that is there before a command that moves no messages is there
afterwards, or it was one that may go. -/
theorem houses_perform (h : broker.Consistent) {command : Command}
    (hquiet : isTraffic command = false) {queue : Queue}
    (found : broker.queues.find? id = some queue) :
    queue.mayGo command ∨
      (broker.perform command).state.Houses id queue.settings := by
  have hnumbered := h.numbered
  have hid : queue.id = id := hnumbered.queues.id_eq found
  have hthere : broker.Houses id queue.settings := ⟨queue, found, rfl⟩
  cases command with
  | flush => exact .inl trivial
  | deleteQueue target =>
      by_cases hsame : target = queue.id
      · exact .inl hsame
      · rw [hid] at hsame
        exact .inr (hthere.deleteQueue hnumbered (Ne.symm hsame))
  | undeclareQueue client target =>
      by_cases hgoes : target = queue.id ∧ queue.settings.flags.autoDelete = true
      · exact .inl hgoes
      · right
        refine hthere.undeclareQueue hnumbered client fun hsame => ?_
        rw [← Bool.not_eq_true]
        exact fun hwishes => hgoes ⟨hsame.trans hid.symm, hwishes⟩
  | eject client =>
      by_cases hgoes : queue.isDeclared client = true ∧
          queue.settings.flags.autoDelete = true
      · exact .inl hgoes
      · right
        show (broker.eject client).state.Houses id queue.settings
        unfold eject
        split
        · exact hthere
        · rename_i links hlinks
          refine (hthere.leaveAll hnumbered client links ?_).congr rfl
          -- What the links name as declared has declared the client.
          intro hmem
          rw [← Bool.not_eq_true]
          intro hwishes
          have hdeclared := (h.memberships.declared id client).mpr
            ⟨links, hlinks, hmem⟩
          rw [AssocList.holds_iff_of_get? found] at hdeclared
          exact hgoes ⟨Queue.isDeclared_iff.mpr hdeclared, hwishes⟩
  | createQueue name settings =>
      exact .inr (hthere.createQueue hnumbered name settings)
  | renameQueue target name =>
      exact .inr (hthere.renameQueue hnumbered target name)
  | declareQueue client target =>
      exact .inr (hthere.declareQueue hnumbered client target)
  | subscribeQueue client target noticesOnly =>
      exact .inr (hthere.subscribeQueue hnumbered client target noticesOnly)
  | unsubscribeQueue client target =>
      exact .inr (hthere.unsubscribeQueue hnumbered client target)
  | deleteRoute route => exact .inr (hthere.deleteRoute route)
  | bind route target key => exact .inr (hthere.bind hnumbered route target key)
  | unbind route target key => exact .inr (hthere.unbind route target key)
  | unsubscribeTopic client channel topic =>
      exact .inr (hthere.unsubscribeTopic hnumbered client channel topic)
  | unsubscribePattern client channel pattern =>
      exact .inr (hthere.unsubscribePattern hnumbered client channel pattern)
  | push | pop | confirm | purge | publishRoute | tick => cases hquiet
  | _ =>
      -- The others do not look at queues.
      refine .inr (hthere.congr ?_)
      simp only [perform, Result.reply, Outcome.lift, connect, createRoute,
        renameRoute, createChannel, deleteChannel, renameChannel,
        subscribeTopic, subscribePattern, publishChannel]
      repeat' split
      all_goals rfl

end Broker

end MessageBroker
