import MessageBroker.Proofs.Broker.Capture
import MessageBroker.Proofs.Broker.Restoring

/-! A broker that is restored from a snapshot of its own has that snapshot
again: nothing that was captured is refused or left out on the way back. -/

namespace MessageBroker

theorem foldlM_eq_ok {σ : Type u} {τ : Type v} {ε : Type w}
    (step : τ → σ → Except ε τ) (good : List σ → τ → Prop) (items : List σ)
    {state : τ} (hstate : good [] state)
    (hstep : ∀ done item rest state, items = done ++ item :: rest →
      good done state →
      ∃ next, step state item = .ok next ∧ good (done ++ [item]) next) :
    ∃ last, items.foldlM step state = .ok last ∧ good items last := by
  have hrest : ∀ rest done state, items = done ++ rest → good done state →
      ∃ last, rest.foldlM step state = .ok last ∧ good items last := by
    intro rest
    induction rest with
    | nil =>
        intro done state hitems hgood
        rw [List.append_nil] at hitems
        exact ⟨state, rfl, hitems ▸ hgood⟩
    | cons item rest ih =>
        intro done state hitems hgood
        obtain ⟨next, hnext, hgood⟩ := hstep done item rest state hitems hgood
        rw [List.append_cons] at hitems
        obtain ⟨last, hlast, hgood⟩ := ih (done ++ [item]) next hitems hgood
        refine ⟨last, ?_, hgood⟩
        rw [List.foldlM_cons, hnext]
        exact hlast
  exact hrest items [] state rfl hstate

theorem not_mem_done {σ : Type u} {names : σ → String}
    {items done rest : List σ} {item : σ} (hnodup : (items.map names).Nodup)
    (hitems : items = done ++ item :: rest) :
    names item ∉ done.map names := by
  intro hmem
  rw [hitems, List.map_append, List.nodup_append] at hnodup
  exact hnodup.2.2 _ hmem _ List.mem_cons_self rfl

theorem TagClock.now_nextTags (clock : TagClock) (count : Nat) :
    (clock.nextTags count).2.now = clock.now := by
  induction count generalizing clock with
  | zero => rfl
  | succ count ih => exact ih clock.stamped

namespace Broker

variable {broker after : Broker}

theorem hasName_captured {ι ε σ : Type} [DecidableEq ι] [Named ι ε]
    {registry : Registry ι ε} {proper : ε → Prop} (h : registry.Lists proper)
    {capture : ε → σ} {captured : List σ} {names : σ → String}
    (hcaptured : registry.toList.map capture = captured)
    (hnames : ∀ entity, names (capture entity) = Named.name entity)
    {name : String} (hnew : name ∉ captured.map names) :
    registry.hasName name = false := by
  rw [← hcaptured, names_captured _ hnames] at hnew
  exact h.hasName_eq_false hnew

/-! What is captured does not depend on the queues' side of the bindings. -/

theorem map_of_unbound {α : Type} {view : Queue → α}
    {queues others : Registry QueueId Queue}
    (hview : ∀ queue : Queue, view queue.unbound = view queue)
    (hunbound : others.mapEntities Queue.unbound =
      queues.mapEntities Queue.unbound) :
    others.toList.map view = queues.toList.map view := by
  have hlists := congrArg (fun registry : Registry QueueId Queue =>
    registry.toList.map view) hunbound
  simp only [Registry.toList_mapEntities, List.map_map, Function.comp_def,
    hview] at hlists
  exact hlists

theorem captures_of_unbound {queues others : Registry QueueId Queue}
    (hunbound : others.mapEntities Queue.unbound =
      queues.mapEntities Queue.unbound) :
    others.toList.map Queue.capture = queues.toList.map Queue.capture :=
  map_of_unbound (fun _ => rfl) hunbound

theorem durableName?_of_unbound
    (hunbound : after.queues.mapEntities Queue.unbound =
      broker.queues.mapEntities Queue.unbound) :
    after.durableName? = broker.durableName? := by
  have hview : ∀ broker : Broker, broker.durableName? = fun id =>
      (((broker.queues.mapEntities Queue.unbound).find? id).filter fun queue =>
        queue.settings.flags.durable).map Queue.name := by
    intro broker
    funext id
    unfold durableName?
    rw [Registry.find?_mapEntities]
    cases broker.queues.find? id with
    | none => rfl
    | some queue =>
        dsimp only [Option.map_some, Option.filter_some, Queue.unbound]
        split <;> rfl
  rw [hview after, hview broker, hunbound]

theorem captureRoute_of_unbound
    (hunbound : after.queues.mapEntities Queue.unbound =
      broker.queues.mapEntities Queue.unbound) :
    after.captureRoute = broker.captureRoute := by
  funext route
  unfold captureRoute
  rw [durableName?_of_unbound hunbound]

structure Rebuilt (config : Config) (now : Timestamp)
    (queues : List QueueSnapshot) (routes : List RouteSnapshot)
    (channels : List ChannelSnapshot) (broker : Broker) : Prop where
  consistent : broker.Consistent
  listed : broker.Listed
  config : broker.config = config
  now : broker.now = now
  queues : broker.queues.toList.map Queue.capture = queues
  routes : broker.routes.toList.map broker.captureRoute = routes
  channels : broker.channels.toList.map Channel.capture = channels

namespace Rebuilt

variable {config : Config} {now : Timestamp} {queues : List QueueSnapshot}
  {routes : List RouteSnapshot} {channels : List ChannelSnapshot}

theorem addQueue (h : Rebuilt config now queues [] [] broker)
    {saved : QueueSnapshot} (hsaved : saved.IsFaithful config)
    (hnew : saved.name ∉ queues.map QueueSnapshot.name) :
    ∃ next, restoreQueue broker saved = .ok next ∧
      Rebuilt config now (queues ++ [saved]) [] [] next := by
  have hname := hasName_captured h.listed.queues h.queues (fun _ => rfl) hnew
  have hrestore := restoreQueue_eq_ok hsaved.name hname
    (h.config ▸ hsaved.settings)
  have hedits := (restoration_queue hrestore).edits
  have hfresh : broker.queues.find? (Named.id
      (restoredQueue ⟨broker.lastNumber + 1⟩
        (broker.slots ⟨broker.lastNumber + 1⟩) broker.clock saved)) =
      none := by
    rw [show Named.id _ = _ from (Queue.refilled_refillAll _ _ _).id_eq]
    exact h.consistent.numbered.freshQueue
  refine ⟨_, hrestore, {
    consistent := h.consistent.edits hedits
    listed := h.listed.edits h.consistent.numbered hedits
    config := h.config
    now := (TagClock.now_nextTags _ _).trans h.now
    queues := ?_
    routes := ?_
    channels := h.channels
  }⟩
  · dsimp only
    rw [Registry.toList_add hfresh, List.map_append, h.queues,
      List.map_singleton]
    unfold restoredQueue
    rw [Queue.capture_refillAll_create _ _ _ hsaved.count hsaved.sizes]
  · have hnone := List.map_eq_nil_iff.mp h.routes
    dsimp only
    rw [hnone]
    rfl

theorem durable_queue (h : Rebuilt config now queues routes channels broker)
    (hdurable : ∀ saved ∈ queues, saved.settings.flags.durable = true)
    {name : String} (hname : name ∈ queues.map QueueSnapshot.name) :
    ∃ id, broker.queues.idOf? name = some id ∧
      broker.durableName? id = some name := by
  obtain ⟨saved, hsaved, rfl⟩ := List.mem_map.mp hname
  have hflag := hdurable saved hsaved
  rw [← h.queues] at hsaved
  obtain ⟨queue, hqueue, rfl⟩ := List.mem_map.mp hsaved
  obtain ⟨id, found⟩ := Registry.mem_toList.mp hqueue
  exact ⟨id, h.listed.queues.idOf? found,
    durableName?_eq_some_iff.mpr ⟨queue, found, hflag, rfl⟩⟩

theorem filterMap_names (h : Rebuilt config now queues routes channels broker)
    (hdurable : ∀ saved ∈ queues, saved.settings.flags.durable = true)
    {names : List String}
    (hknown : ∀ name ∈ names, name ∈ queues.map QueueSnapshot.name) :
    (names.filterMap broker.queues.idOf?).filterMap broker.durableName? =
      names := by
  rw [List.filterMap_filterMap]
  refine (List.filterMap_congr fun name hname => ?_).trans List.filterMap_some
  obtain ⟨id, hid, hback⟩ := h.durable_queue hdurable (hknown name hname)
  rw [hid]
  exact hback

theorem linksUnder_proper (h : Rebuilt config now queues routes channels broker)
    (hdurable : ∀ saved ∈ queues, saved.settings.flags.durable = true)
    {binding : BindingSnapshot}
    (hbinding : binding.IsFaithful (queues.map QueueSnapshot.name)) :
    (broker.linksUnder binding).2 ≠ [] ∧
      (broker.linksUnder binding).2.Nodup := by
  have hnames := h.filterMap_names hdurable hbinding.known
  constructor
  · intro hnil
    unfold linksUnder at hnil
    dsimp only at hnil
    rw [hnil] at hnames
    exact hbinding.nonempty hnames.symm
  · refine hbinding.nodup.filterMap fun first second id hfirst hsecond => ?_
    obtain ⟨queue, found, rfl⟩ := (h.listed.queues.idOf?_iff _ _).mp hfirst
    obtain ⟨other, hother, rfl⟩ := (h.listed.queues.idOf?_iff _ _).mp hsecond
    rw [Option.mem_def.mp found] at hother
    cases hother
    rfl

theorem captureRoute_restoredRoute
    (h : Rebuilt config now queues routes channels broker)
    (hdurable : ∀ saved ∈ queues, saved.settings.flags.durable = true)
    {saved : RouteSnapshot}
    (hsaved : saved.IsFaithful (queues.map QueueSnapshot.name)) :
    broker.captureRoute (broker.restoredRoute saved) = saved := by
  have hlists : (broker.restoredRoute saved).bindings.toLists =
      saved.bindings.map broker.linksUnder := by
    refine MemberIndex.toLists_linkAll ?_ ?_
    · rw [List.map_map]
      exact hsaved.keys
    · intro group hgroup
      obtain ⟨binding, hbinding, rfl⟩ := List.mem_map.mp hgroup
      exact h.linksUnder_proper hdurable (hsaved.bindings binding hbinding)
  have hgroups : ((saved.bindings.map broker.linksUnder).map fun group =>
      BindingSnapshot.mk group.1 (group.2.filterMap broker.durableName?)) =
        saved.bindings := by
    rw [List.map_map]
    refine (List.map_congr_left fun binding hbinding => ?_).trans
      (List.map_id saved.bindings)
    exact congrArg (BindingSnapshot.mk binding.key)
      (h.filterMap_names hdurable (hsaved.bindings binding hbinding).known)
  have hkept : (saved.bindings.filter fun binding => !binding.queues.isEmpty) =
      saved.bindings := by
    refine List.filter_eq_self.mpr fun binding hbinding => ?_
    simpa using (hsaved.bindings binding hbinding).nonempty
  unfold captureRoute
  rw [hlists, hgroups, hkept]
  rfl

theorem addRoute (h : Rebuilt config now queues routes [] broker)
    (hdurable : ∀ saved ∈ queues, saved.settings.flags.durable = true)
    {saved : RouteSnapshot}
    (hsaved : saved.IsFaithful (queues.map QueueSnapshot.name))
    (hnew : saved.name ∉ routes.map RouteSnapshot.name) :
    ∃ next, restoreRoute broker saved = .ok next ∧
      Rebuilt config now queues (routes ++ [saved]) [] next := by
  have hname := hasName_captured h.listed.routes h.routes (fun _ => rfl) hnew
  obtain ⟨others, hrestore, hunbound⟩ :=
    restoreRoute_eq_ok h.consistent h.listed hsaved.name hname
  have hedits := (restoration_route h.consistent hrestore).edits
  refine ⟨_, hrestore, {
    consistent := h.consistent.edits hedits
    listed := h.listed.edits h.consistent.numbered hedits
    config := h.config
    now := h.now
    queues := (captures_of_unbound hunbound).trans h.queues
    routes := ?_
    channels := h.channels
  }⟩
  have hfresh : broker.routes.find?
      (Named.id (broker.restoredRoute saved)) = none :=
    h.consistent.numbered.freshRoute
  rw [captureRoute_of_unbound hunbound, Registry.toList_add hfresh,
    List.map_append, h.routes, List.map_singleton,
    h.captureRoute_restoredRoute hdurable hsaved]

theorem addChannel (h : Rebuilt config now queues routes channels broker)
    {saved : ChannelSnapshot} (hvalid : Name.isValid saved.name = true)
    (hnew : saved.name ∉ channels.map ChannelSnapshot.name) :
    ∃ next, restoreChannel broker saved = .ok next ∧
      Rebuilt config now queues routes (channels ++ [saved]) next := by
  have hname :=
    hasName_captured h.listed.channels h.channels (fun _ => rfl) hnew
  have hrestore := restoreChannel_eq_ok hvalid hname
  have hedits := (restoration_channel hrestore).edits
  refine ⟨_, hrestore, {
    consistent := h.consistent.edits hedits
    listed := h.listed.edits h.consistent.numbered hedits
    config := h.config
    now := h.now
    queues := h.queues
    routes := h.routes
    channels := ?_
  }⟩
  dsimp only
  rw [Registry.toList_add h.consistent.numbered.freshChannel, List.map_append,
    h.channels]
  rfl

end Rebuilt

end Broker

end MessageBroker
