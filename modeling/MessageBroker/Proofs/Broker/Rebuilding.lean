import MessageBroker.Proofs.Broker.Outline
import MessageBroker.Proofs.Broker.Publishing
import MessageBroker.Proofs.Queue.Admission

/-! A broker that is restored from whatever a snapshot may hold: which snapshots
are refused, and what comes back of the others. -/

namespace MessageBroker

structure QueueSnapshot.IsRestorable (config : Config) (saved : QueueSnapshot) :
    Prop where
  name : Name.isValid saved.name = true
  count : 1 ≤ saved.settings.maxMessages ∧
    saved.settings.maxMessages ≤ config.maxQueueMessages
  size : 1 ≤ saved.settings.maxMessageSize ∧
    saved.settings.maxMessageSize ≤ config.maxMessageSize

structure Snapshot.IsRestorable (config : Config) (snapshot : Snapshot) :
    Prop where
  queueNames : (snapshot.queues.map QueueSnapshot.name).Nodup
  queues : ∀ saved ∈ snapshot.queues, saved.IsRestorable config
  routeNames : (snapshot.routes.map RouteSnapshot.name).Nodup
  routes : ∀ saved ∈ snapshot.routes, Name.isValid saved.name = true
  channelNames : (snapshot.channels.map ChannelSnapshot.name).Nodup
  channels : ∀ saved ∈ snapshot.channels, Name.isValid saved.name = true

/-- Nobody has to do with the queue, and it has handed out nothing. -/
structure Queue.IsUnused (queue : Queue) : Prop where
  held : queue.heldMessages = []
  declared : queue.declared.items = []
  subscribers : queue.subscribers = []

namespace Broker

def tags (broker : Broker) : List Tag :=
  broker.queues.toList.flatMap fun queue => queue.messages.map Message.tag

/-- All that comes back of a snapshot. -/
structure IsRestored (config : Config) (time : Timestamp)
    (snapshot : Snapshot) (broker : Broker) : Prop where
  config : broker.config = config
  now : broker.now = time
  queues : broker.queues.toList.map Queue.capture =
    snapshot.queues.map fun saved => { saved with messages := saved.kept }
  unused : ∀ queue ∈ broker.queues.toList, queue.IsUnused
  /-- Every saved message takes a tag, also if it is not kept. -/
  fresh : broker.tags.Sublist
    ((TagClock.start time).nextTags snapshot.messageCount).1
  increasing : snapshot.messageCount ≤ UInt32.size →
    broker.tags.Pairwise (· < ·)
  routes : broker.routes.toList.map broker.outline =
    snapshot.routes.map
      (RouteSnapshot.outline (snapshot.queues.map QueueSnapshot.name))
  absent : ∀ route ∈ broker.routes.toList, ∀ key,
    route.bindings.members key = [] → route.bindings.group? key = none
  channels : broker.channels.toList.map Channel.capture = snapshot.channels
  unheard : ∀ channel ∈ broker.channels.toList, channel.isUnused = true
  clients : broker.clients.entries = []

variable {broker after : Broker}

section

variable {σ : Type} {items : List σ} {item : σ}

theorem nodup_concat {names : σ → String} (h : (items.map names).Nodup)
    (hnew : names item ∉ items.map names) :
    ((items ++ [item]).map names).Nodup := by
  rw [List.map_append, List.map_singleton, ← List.concat_eq_append]
  exact h.concat hnew

theorem forall_mem_concat {property : σ → Prop}
    (h : ∀ other ∈ items, property other) (hitem : property item) :
    ∀ other ∈ items ++ [item], property other :=
  List.forall_mem_append.mpr ⟨h, List.forall_mem_singleton.mpr hitem⟩

end

theorem isUnused_restoredQueue (id : QueueId) (slots : SlotPolicy)
    (clock : TagClock) (saved : QueueSnapshot) :
    (restoredQueue id slots clock saved).IsUnused := by
  obtain ⟨_, _, hqueue⟩ := (Queue.create id saved.name saved.settings
    slots).rebuffered_refillAll clock saved.messages
  unfold restoredQueue
  rw [hqueue]
  exact ⟨rfl, rfl, rfl⟩

/-- What has come back of saved queues. -/
structure QueuesBack (time : Timestamp) (saved : List QueueSnapshot)
    (queues : Registry QueueId Queue) : Prop where
  captured : queues.toList.map Queue.capture =
    saved.map fun saved => { saved with messages := saved.kept }
  unused : ∀ queue ∈ queues.toList, queue.IsUnused
  fresh : (queues.toList.flatMap fun queue =>
      queue.messages.map Message.tag).Sublist
    ((TagClock.start time).nextTags
      (saved.flatMap QueueSnapshot.messages).length).1

namespace QueuesBack

variable {time : Timestamp} {saved : List QueueSnapshot}
  {queues others : Registry QueueId Queue}

theorem names (h : QueuesBack time saved queues) :
    queues.toList.map Queue.name = saved.map QueueSnapshot.name := by
  have hnames := congrArg (List.map QueueSnapshot.name) h.captured
  rw [List.map_map, List.map_map] at hnames
  exact hnames

theorem of_unbound (h : QueuesBack time saved queues)
    (hunbound : others.mapEntities Queue.unbound =
      queues.mapEntities Queue.unbound) : QueuesBack time saved others where
  captured := (captures_of_unbound hunbound).trans h.captured
  unused := by
    have hview : others.toList.map Queue.IsUnused =
        queues.toList.map Queue.IsUnused :=
      map_of_unbound (fun queue => propext
        ⟨fun h => ⟨h.held, h.declared, h.subscribers⟩,
          fun h => ⟨h.held, h.declared, h.subscribers⟩⟩) hunbound
    have hall := h.unused
    rw [← List.forall_mem_map (P := fun unused => unused), ← hview,
      List.forall_mem_map] at hall
    exact hall
  fresh := by
    have hview : others.toList.map (fun queue => queue.messages.map Message.tag) =
        queues.toList.map fun queue => queue.messages.map Message.tag :=
      map_of_unbound (fun _ => rfl) hunbound
    rw [List.flatMap_def, hview, ← List.flatMap_def]
    exact h.fresh

theorem add (h : QueuesBack time saved queues) {id : QueueId}
    (hnew : queues.find? id = none) {next : QueueSnapshot}
    (hpositive : 0 < next.settings.maxMessages.toNat) (slots : SlotPolicy)
    {clock : TagClock}
    (hclock : clock = ((TagClock.start time).nextTags
      (saved.flatMap QueueSnapshot.messages).length).2) :
    QueuesBack time (saved ++ [next])
      (queues.add (restoredQueue id slots clock next)) := by
  have hrefilled := (Queue.create id next.name next.settings
    slots).refilled_refillAll clock next.messages
  have hid : (restoredQueue id slots clock next).id = id := hrefilled.id_eq
  have hfresh : queues.find? (Named.id (restoredQueue id slots clock next)) =
      none := by
    rw [show Named.id _ = _ from hid]
    exact hnew
  obtain ⟨hkept, htags⟩ :=
    Queue.messages_refillAll_create id slots clock hpositive
  have hcapture : (restoredQueue id slots clock next).capture =
      { next with messages := next.kept } := by
    unfold Queue.capture restoredQueue
    rw [hkept, hrefilled.name_eq, hrefilled.settings_eq]
    rfl
  constructor
  · rw [Registry.toList_add hfresh, List.map_append, List.map_append,
      h.captured, List.map_singleton, List.map_singleton, hcapture]
  · rw [Registry.toList_add hfresh]
    exact forall_mem_concat h.unused (isUnused_restoredQueue id slots clock next)
  · rw [Registry.toList_add hfresh, List.flatMap_append, List.flatMap_append,
      List.flatMap_singleton, List.flatMap_singleton, List.length_append,
      TagClock.nextTags_add, ← hclock]
    exact h.fresh.append htags

end QueuesBack

/-! Steps of a restore. A step that goes well is one that may, and then it adds
what it is meant to. -/

/-- A broker that is being restored, part by part. -/
structure Regrown (config : Config) (time : Timestamp)
    (queues : List QueueSnapshot) (routes : List RouteSnapshot)
    (channels : List ChannelSnapshot) (broker : Broker) : Prop where
  restorable : (Snapshot.mk time queues routes channels).IsRestorable config
  consistent : broker.Consistent
  listed : broker.Listed
  config : broker.config = config
  clock : broker.clock = ((TagClock.start time).nextTags
    (queues.flatMap QueueSnapshot.messages).length).2
  back : QueuesBack time queues broker.queues
  routes : broker.routes.toList.map broker.outline =
    routes.map (RouteSnapshot.outline (queues.map QueueSnapshot.name))
  channels : broker.channels.toList.map Channel.capture = channels
  unheard : ∀ channel ∈ broker.channels.toList, channel.isUnused = true
  clients : broker.clients.entries = []

theorem regrown_idle (config : Config) (time : Timestamp)
    (slots : QueueId → SlotPolicy) :
    Regrown config time [] [] [] (idle config time slots) where
  restorable := ⟨.nil, nofun, .nil, nofun, .nil, nofun⟩
  consistent := consistent_idle config time slots
  listed := ⟨.empty, .empty, .empty⟩
  config := rfl
  clock := rfl
  back := ⟨rfl, nofun, .slnil⟩
  routes := rfl
  channels := rfl
  unheard := nofun
  clients := rfl

namespace Regrown

variable {config : Config} {time : Timestamp} {queues : List QueueSnapshot}
  {routes : List RouteSnapshot} {channels : List ChannelSnapshot}

theorem addQueue (h : Regrown config time queues [] [] broker)
    {saved : QueueSnapshot} (hsaved : saved.IsRestorable config)
    (hnew : saved.name ∉ queues.map QueueSnapshot.name) :
    ∃ next, restoreQueue broker saved = .ok next ∧
      Regrown config time (queues ++ [saved]) [] [] next := by
  have hname : broker.queues.hasName saved.name = false :=
    h.listed.queues.hasName_eq_false (h.back.names ▸ hnew)
  have hsound : queueFault? broker.config saved.settings = none :=
    queueFault?_eq_none_iff.mpr (h.config ▸ ⟨hsaved.count, hsaved.size⟩)
  have hrestore := restoreQueue_eq_ok hsaved.name hname hsound
  have hedits := (restoration_queue hrestore).edits
  have hpositive : 0 < saved.settings.maxMessages.toNat :=
    UInt32.le_iff_toNat_le.mp hsaved.count.1
  refine ⟨_, hrestore, {
    restorable := {
      h.restorable with
      queueNames := nodup_concat h.restorable.queueNames hnew
      queues := forall_mem_concat h.restorable.queues hsaved
    }
    consistent := h.consistent.edits hedits
    listed := h.listed.edits h.consistent.numbered hedits
    config := h.config
    clock := ?_
    back := h.back.add h.consistent.numbered.freshQueue hpositive _ h.clock
    routes := ?_
    channels := h.channels
    unheard := h.unheard
    clients := h.clients
  }⟩
  · rw [List.flatMap_append, List.flatMap_singleton, List.length_append,
      TagClock.nextTags_add, ← h.clock]
  · have hnone := List.map_eq_nil_iff.mp h.routes
    dsimp only
    rw [hnone]
    rfl

theorem routeNames (h : Regrown config time queues routes channels broker) :
    broker.routes.toList.map Route.name = routes.map RouteSnapshot.name := by
  have hnames := congrArg (List.map RouteOutline.name) h.routes
  rw [List.map_map, List.map_map] at hnames
  exact hnames

theorem addRoute (h : Regrown config time queues routes [] broker)
    {saved : RouteSnapshot} (hvalid : Name.isValid saved.name = true)
    (hnew : saved.name ∉ routes.map RouteSnapshot.name) :
    ∃ next, restoreRoute broker saved = .ok next ∧
      Regrown config time queues (routes ++ [saved]) [] next := by
  have hname : broker.routes.hasName saved.name = false :=
    h.listed.routes.hasName_eq_false fun hmem => hnew (h.routeNames ▸ hmem)
  obtain ⟨others, hrestore, hunbound⟩ :=
    restoreRoute_eq_ok h.consistent h.listed hvalid hname
  have hedits := (restoration_route h.consistent hrestore).edits
  refine ⟨_, hrestore, {
    restorable := {
      h.restorable with
      routeNames := nodup_concat h.restorable.routeNames hnew
      routes := forall_mem_concat h.restorable.routes hvalid
    }
    consistent := h.consistent.edits hedits
    listed := h.listed.edits h.consistent.numbered hedits
    config := h.config
    clock := h.clock
    back := h.back.of_unbound hunbound
    routes := ?_
    channels := h.channels
    unheard := h.unheard
    clients := h.clients
  }⟩
  have hfresh : broker.routes.find?
      (Named.id (broker.restoredRoute saved)) = none :=
    h.consistent.numbered.freshRoute
  rw [outline_of_unbound hunbound, Registry.toList_add hfresh,
    List.map_append, List.map_append, h.routes, List.map_singleton,
    List.map_singleton, outline_restoredRoute h.listed h.back.names]

theorem addChannel (h : Regrown config time queues routes channels broker)
    {saved : ChannelSnapshot} (hvalid : Name.isValid saved.name = true)
    (hnew : saved.name ∉ channels.map ChannelSnapshot.name) :
    ∃ next, restoreChannel broker saved = .ok next ∧
      Regrown config time queues routes (channels ++ [saved]) next := by
  have hname :=
    hasName_captured h.listed.channels h.channels (fun _ => rfl) hnew
  have hrestore := restoreChannel_eq_ok hvalid hname
  have hedits := (restoration_channel hrestore).edits
  let channel := Channel.create ⟨broker.lastNumber + 1⟩ saved.name saved.flags
    broker.config.channelMaxMessageSize
  have hlist : (broker.channels.add channel).toList =
      broker.channels.toList ++ [channel] :=
    Registry.toList_add h.consistent.numbered.freshChannel
  refine ⟨_, hrestore, {
    restorable := {
      h.restorable with
      channelNames := nodup_concat h.restorable.channelNames hnew
      channels := forall_mem_concat h.restorable.channels hvalid
    }
    consistent := h.consistent.edits hedits
    listed := h.listed.edits h.consistent.numbered hedits
    config := h.config
    clock := h.clock
    back := h.back
    routes := h.routes
    channels := ?_
    unheard := ?_
    clients := h.clients
  }⟩
  · rw [hlist, List.map_append, h.channels]
    rfl
  · rw [hlist]
    exact forall_mem_concat h.unheard rfl

theorem isRestorable_of_ok (h : Regrown config time queues [] [] broker)
    {saved : QueueSnapshot} (hrestore : restoreQueue broker saved = .ok after) :
    saved.IsRestorable config ∧
      saved.name ∉ queues.map QueueSnapshot.name := by
  obtain ⟨⟨id, created⟩, hcreate, -⟩ := map_eq_ok hrestore
  obtain ⟨hvalid, hname, hsound⟩ :=
    of_createQueue_ok (require_eq_ok hcreate).1
  rw [h.config] at hsound
  obtain ⟨hcount, hsize⟩ := queueFault?_eq_none_iff.mp hsound
  refine ⟨⟨hvalid, hcount, hsize⟩, ?_⟩
  rw [← h.back.names]
  exact h.listed.queues.not_mem_names hname

theorem route_of_ok (h : Regrown config time queues routes [] broker)
    {saved : RouteSnapshot} (hrestore : restoreRoute broker saved = .ok after) :
    Name.isValid saved.name = true ∧
      saved.name ∉ routes.map RouteSnapshot.name := by
  obtain ⟨⟨id, created⟩, hcreate, -⟩ := bind_eq_ok hrestore
  obtain ⟨hvalid, hname⟩ := of_createRoute_ok (require_eq_ok hcreate).1
  have habsent := h.listed.routes.not_mem_names hname
  exact ⟨hvalid, fun hmem => habsent (h.routeNames ▸ hmem)⟩

theorem channel_of_ok (h : Regrown config time queues routes channels broker)
    {saved : ChannelSnapshot}
    (hrestore : restoreChannel broker saved = .ok after) :
    Name.isValid saved.name = true ∧
      saved.name ∉ channels.map ChannelSnapshot.name := by
  obtain ⟨⟨id, created⟩, hcreate, -⟩ := map_eq_ok hrestore
  obtain ⟨hvalid, hname⟩ := of_createChannel_ok (require_eq_ok hcreate).1
  refine ⟨hvalid, ?_⟩
  rw [← h.channels, List.map_map]
  exact h.listed.channels.not_mem_names hname

theorem isRestored {snapshot : Snapshot}
    (h : Regrown config time snapshot.queues snapshot.routes snapshot.channels
      broker) : broker.IsRestored config time snapshot where
  config := h.config
  now := by
    unfold Broker.now
    rw [h.clock, TagClock.now_nextTags, TagClock.now_start]
  queues := h.back.captured
  unused := h.back.unused
  fresh := h.back.fresh
  increasing hbound := by
    refine List.Pairwise.sublist h.back.fresh ?_
    refine TagClock.pairwise_nextTags (TagClock.within_start time) ?_
    rw [Nat.zero_add]
    exact hbound
  routes := h.routes
  absent _ _ _ := MemberIndex.members_eq_nil_iff.mp
  channels := h.channels
  unheard := h.unheard
  clients := h.clients

end Regrown

variable {config : Config} {wallClock : Timestamp} {snapshot : Snapshot}
  {slots : QueueId → SlotPolicy}

theorem regrown_of_ok
    (hrestore : restore config wallClock snapshot slots = .ok broker) :
    Regrown config (wallClock.latest snapshot.takenAt) snapshot.queues
      snapshot.routes snapshot.channels broker := by
  obtain ⟨origin, hstart, hrestore⟩ := bind_eq_ok hrestore
  obtain ⟨withQueues, hqueues, hrestore⟩ := bind_eq_ok hrestore
  obtain ⟨withRoutes, hroutes, hchannels⟩ := bind_eq_ok hrestore
  cases eq_idle_of_start hstart
  generalize wallClock.latest snapshot.takenAt = time at *
  have hfirst := good_of_foldlM (fun done => Regrown config time done [] [])
    (regrown_idle config time slots)
    (fun done saved broker next hdone hstep => by
      obtain ⟨hsaved, hnew⟩ := hdone.isRestorable_of_ok hstep
      obtain ⟨other, hsame, hgrown⟩ := hdone.addQueue hsaved hnew
      cases hstep.symm.trans hsame
      exact hgrown) hqueues
  have hsecond := good_of_foldlM
    (fun done => Regrown config time snapshot.queues done []) hfirst
    (fun done saved broker next hdone hstep => by
      obtain ⟨hvalid, hnew⟩ := hdone.route_of_ok hstep
      obtain ⟨other, hsame, hgrown⟩ := hdone.addRoute hvalid hnew
      cases hstep.symm.trans hsame
      exact hgrown) hroutes
  exact good_of_foldlM
    (Regrown config time snapshot.queues snapshot.routes) hsecond
    (fun done saved broker next hdone hstep => by
      obtain ⟨hvalid, hnew⟩ := hdone.channel_of_ok hstep
      obtain ⟨other, hsame, hgrown⟩ := hdone.addChannel hvalid hnew
      cases hstep.symm.trans hsame
      exact hgrown) hchannels

theorem exists_restored (hsound : config.fault? = none)
    (h : snapshot.IsRestorable config) (wallClock : Timestamp)
    (slots : QueueId → SlotPolicy) :
    ∃ restored, restore config wallClock snapshot slots = .ok restored := by
  unfold restore
  generalize wallClock.latest snapshot.takenAt = time
  obtain ⟨withQueues, hqueues, hgrown⟩ := foldlM_eq_ok restoreQueue
    (fun done => Regrown config time done [] []) snapshot.queues
    (regrown_idle config time slots)
    fun done saved rest broker hitems hdone =>
      hdone.addQueue (h.queues saved (by simp [hitems]))
        (not_mem_done h.queueNames hitems)
  obtain ⟨withRoutes, hroutes, hgrown⟩ := foldlM_eq_ok restoreRoute
    (fun done => Regrown config time snapshot.queues done []) snapshot.routes
    hgrown
    fun done saved rest broker hitems hdone =>
      hdone.addRoute (h.routes saved (by simp [hitems]))
        (not_mem_done h.routeNames hitems)
  obtain ⟨restored, hchannels, -⟩ := foldlM_eq_ok restoreChannel
    (Regrown config time snapshot.queues snapshot.routes) snapshot.channels
    hgrown
    fun done saved rest broker hitems hdone =>
      hdone.addChannel (h.channels saved (by simp [hitems]))
        (not_mem_done h.channelNames hitems)
  refine ⟨restored, ?_⟩
  rw [start_of_sound hsound]
  simp only [Except.bind, hqueues, hroutes, hchannels]

/-- What a restore is made of tells nobody anything. -/
structure GrowsInSilence (broker : Broker) : Prop where
  createQueue : ∀ name settings,
    (broker.createQueue name settings).signals = []
  createRoute : ∀ name flags, (broker.createRoute name flags).signals = []
  bind : ∀ route queue key, (broker.bind route queue key).signals = []
  createChannel : ∀ name flags, (broker.createChannel name flags).signals = []

theorem growsInSilence (broker : Broker) : broker.GrowsInSilence where
  createQueue name settings := by
    unfold createQueue
    repeat' split
    all_goals rfl
  createRoute name flags := by
    unfold createRoute
    repeat' split
    all_goals rfl
  bind route queue key := by
    unfold bind
    repeat' split
    all_goals rfl
  createChannel name flags := by
    unfold createChannel
    repeat' split
    all_goals rfl

/-- A snapshot is refused only for a name or for the settings of a queue. All
else that may be wrong with it is left out or put in order. -/
theorem restore_exact (hsound : config.fault? = none) (wallClock : Timestamp)
    (snapshot : Snapshot) (slots : QueueId → SlotPolicy) :
    ((∃ restored, restore config wallClock snapshot slots = .ok restored) ↔
      snapshot.IsRestorable config) ∧
    (∀ restored, restore config wallClock snapshot slots = .ok restored →
      restored.IsRestored config (wallClock.latest snapshot.takenAt)
        snapshot) ∧
    ∀ between : Broker, between.GrowsInSilence := by
  refine ⟨⟨?_, ?_⟩, ?_, growsInSilence⟩
  · rintro ⟨restored, hrestore⟩
    exact { (regrown_of_ok hrestore).restorable with }
  · exact fun h => exists_restored hsound h wallClock slots
  · exact fun restored hrestore => (regrown_of_ok hrestore).isRestored

/-- One queue evicts and one does not, and each has more messages than it may
keep. A key is bound twice, to a queue that is not there too, and another key to
that queue alone. With the route saved twice nothing comes back. -/
theorem restore_exact_overfull :
    let saved : RouteSnapshot := ⟨"work", ⟨false, false, true⟩, [
      ⟨"urgent", ["mails", "gone", "mails"]⟩, ⟨"later", ["gone"]⟩,
      ⟨"urgent", ["jobs", "mails"]⟩]⟩
    let snapshot : Snapshot := {
      takenAt := ⟨5⟩
      queues := [
        ⟨"jobs", ⟨2, 3, ⟨false, true, false, true⟩⟩,
          [⟨[1], none⟩, ⟨[2], some ⟨9⟩⟩, ⟨[3, 3, 3, 3], none⟩, ⟨[4], none⟩]⟩,
        ⟨"mails", ⟨2, 3, ⟨false, false, false, true⟩⟩,
          [⟨[5], none⟩, ⟨[6], none⟩, ⟨[7], none⟩]⟩]
      routes := [saved]
      channels := [⟨"news", ⟨false, false⟩⟩]
    }
    (∃ restored, restore .default ⟨3⟩ snapshot = .ok restored ∧
      restored.IsRestored .default ⟨5⟩ snapshot ∧
      snapshot.queues.map QueueSnapshot.kept =
        [[⟨[2], some ⟨9⟩⟩, ⟨[4], none⟩], [⟨[5], none⟩, ⟨[6], none⟩]] ∧
      (saved.outline ["jobs", "mails"]).queues "urgent" =
        [some "mails", some "jobs"] ∧
      (saved.outline ["jobs", "mails"]).queues "later" = []) ∧
    ¬ ∃ restored, restore .default ⟨3⟩
      { snapshot with routes := [saved, saved] } = .ok restored := by
  intro saved snapshot
  have hsound : Config.default.fault? = none := by decide
  have hrestorable : snapshot.IsRestorable .default := {
    queueNames := by decide
    queues := by
      refine List.forall_mem_cons.mpr ⟨⟨by decide, by decide, by decide⟩, ?_⟩
      exact List.forall_mem_singleton.mpr ⟨by decide, by decide, by decide⟩
    routeNames := by decide
    routes := by decide
    channelNames := by decide
    channels := by decide
  }
  obtain ⟨hrestores, hrestored, -⟩ :=
    restore_exact hsound ⟨3⟩ snapshot fun _ => .lowest
  obtain ⟨hrefused, -, -⟩ := restore_exact hsound ⟨3⟩
    { snapshot with routes := [saved, saved] } fun _ => .lowest
  obtain ⟨restored, hrestore⟩ := hrestores.mpr hrestorable
  refine ⟨⟨restored, hrestore, hrestored restored hrestore, rfl, ?_, rfl⟩,
    fun hok => ?_⟩
  · cbv
  · exact absurd (hrefused.mp hok).routeNames (by decide)

end Broker

end MessageBroker
