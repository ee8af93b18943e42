import MessageBroker.Proofs.Broker.Standing

/-! Commands that withdraw something: what loses a tie, and what goes by that,
through every cascade. -/

namespace MessageBroker

/-- The standing of an entity that goes by itself. -/
def Standing.abandoned : Standing := ⟨true, []⟩

/-- An entity that stays loses some of its ties. If it wishes to go, it has not
lost all of them. -/
structure Standing.Loses (severed : Tie → Prop) (before now : Standing) :
    Prop where
  autoDelete : now.autoDelete = before.autoDelete
  fewer : now.ties ⊆ before.ties
  kept : ∀ tie ∈ before.ties, tie ∈ now.ties ∨ severed tie
  tied : before.autoDelete = true → before.ties ≠ [] → now.ties ≠ []

/-- An entity that goes by itself has been tied, and all its ties are
severed. -/
structure Standing.GoesByItself (severed : Tie → Prop) (before : Standing) :
    Prop where
  autoDelete : before.autoDelete = true
  tied : before.ties ≠ []
  severed : ∀ tie ∈ before.ties, severed tie

/-- What may become of an entity when something is withdrawn. -/
inductive Fading (severed : Tie → Prop) (deleted : Prop) :
    Option Standing → Option Standing → Prop
  | absent : Fading severed deleted none none
  | stays {before now : Standing} (hloses : before.Loses severed now) :
      Fading severed deleted (some before) (some now)
  | goes {before : Standing} (hgoes : before.GoesByItself severed) :
      Fading severed deleted (some before) none
  | deleted (hdeleted : deleted) (before : Standing) :
      Fading severed deleted (some before) none

namespace Fading

variable {severed more : Tie → Prop} {deleted deletedToo : Prop}
  {first middle last : Option Standing}

theorem refl (severed : Tie → Prop) (deleted : Prop)
    (standing? : Option Standing) :
    Fading severed deleted standing? standing? := by
  cases standing? with
  | none => exact .absent
  | some standing =>
      exact .stays ⟨rfl, List.Subset.refl _, fun _ => .inl, fun _ => id⟩

theorem mono (h : Fading severed deleted first last)
    (hsevered : ∀ tie, severed tie → more tie)
    (hdeleted : deleted → deletedToo) :
    Fading more deletedToo first last := by
  cases h with
  | absent => exact .absent
  | stays hloses =>
      exact .stays { hloses with
        kept := fun tie hmem =>
          (hloses.kept tie hmem).imp_right (hsevered tie) }
  | goes hgoes =>
      exact .goes { hgoes with
        severed := fun tie hmem => hsevered tie (hgoes.severed tie hmem) }
  | deleted hdirect => exact .deleted (hdeleted hdirect) _

theorem eq_none (h : Fading severed deleted none last) : last = none := by
  cases h
  rfl

theorem exists_loses {now : Standing}
    (h : Fading severed deleted first (some now)) :
    ∃ before, first = some before ∧ before.Loses severed now := by
  cases h with
  | stays hloses => exact ⟨_, rfl, hloses⟩

theorem trans (hfirst : Fading severed deleted first middle)
    (hsecond : Fading severed deleted middle last) :
    Fading severed deleted first last := by
  cases hfirst with
  | absent => exact hsecond
  | goes hgoes =>
      rw [hsecond.eq_none]
      exact .goes hgoes
  | deleted hdeleted =>
      rw [hsecond.eq_none]
      exact .deleted hdeleted _
  | @stays before now hloses =>
      cases hsecond with
      | deleted hdeleted => exact .deleted hdeleted _
      | goes hgoes =>
          refine .goes ⟨hloses.autoDelete ▸ hgoes.autoDelete, ?_, ?_⟩
          · intro hnil
            have hnone := hloses.fewer
            rw [hnil] at hnone
            exact hgoes.tied (List.subset_nil.mp hnone)
          · intro tie hmem
            exact (hloses.kept tie hmem).elim (hgoes.severed tie) id
      | stays hlater =>
          refine .stays ⟨hlater.autoDelete.trans hloses.autoDelete,
            List.Subset.trans hlater.fewer hloses.fewer, ?_, ?_⟩
          · intro tie hmem
            exact (hloses.kept tie hmem).elim (hlater.kept tie) .inr
          · intro hauto htied
            exact hlater.tied (hloses.autoDelete.trans hauto)
              (hloses.tied hauto htied)

/-- Some ties are lost. The entity goes if it had one of them, wishes to go and
has none left. -/
theorem of_lost {lost : Tie → Prop} {before now : Standing}
    (hauto : now.autoDelete = before.autoDelete)
    (hties : ∀ tie, tie ∈ now.ties ↔ tie ∈ before.ties ∧ ¬ lost tie)
    (hlost : ∀ tie, lost tie → severed tie)
    (hgoes : (∃ tie ∈ before.ties, lost tie) → now = .abandoned → last = none)
    (hstays : ¬ ((∃ tie ∈ before.ties, lost tie) ∧ now = .abandoned) →
      last = some now) :
    Fading severed deleted (some before) last := by
  by_cases habandoned : (∃ tie ∈ before.ties, lost tie) ∧ now = .abandoned
  · rw [hgoes habandoned.1 habandoned.2]
    obtain ⟨⟨lostTie, hhad, -⟩, rfl⟩ := habandoned
    refine .goes ⟨hauto.symm, List.ne_nil_of_mem hhad, fun tie hmem => ?_⟩
    by_contra hkept
    exact List.not_mem_nil
      ((hties tie).mpr ⟨hmem, fun h => hkept (hlost tie h)⟩)
  · rw [hstays habandoned]
    refine .stays ⟨hauto, fun tie hmem => ((hties tie).mp hmem).1, ?_, ?_⟩
    · intro tie hmem
      by_cases hgone : lost tie
      · exact .inr (hlost tie hgone)
      · exact .inl ((hties tie).mpr ⟨hmem, hgone⟩)
    · intro hwishes htied hnil
      -- With no tie left, one of those it had was lost.
      obtain ⟨tie, hmem⟩ := List.exists_mem_of_ne_nil _ htied
      have hgone : lost tie := by
        by_contra hkept
        have hleft := (hties tie).mpr ⟨hmem, hkept⟩
        rw [hnil] at hleft
        exact List.not_mem_nil hleft
      refine habandoned ⟨⟨tie, hmem, hgone⟩, ?_⟩
      cases now
      cases hnil
      cases hauto.trans hwishes
      rfl

end Fading

namespace Command

/-- The ties that a command takes back by itself. -/
def TakesBack : Command → Entity → Tie → Prop
  | .undeclareQueue client queue, entity, tie =>
      entity = .queue queue ∧ tie = .declared client
  | .unbind route queue key, entity, tie =>
      entity = .route route ∧ tie = .bound key queue
  | .unsubscribeTopic client channel topic, entity, tie =>
      entity = .channel channel ∧ tie = .topic topic client
  | .unsubscribePattern client channel pattern, entity, tie =>
      entity = .channel channel ∧ tie = .pattern pattern client
  | .eject client, _, tie => tie.client? = some client
  | _, _, _ => False

def Deletes : Command → Entity → Prop
  | .deleteQueue id, entity => entity = .queue id
  | .deleteRoute id, entity => entity = .route id
  | .deleteChannel id, entity => entity = .channel id
  | .flush, _ => True
  | _, _ => False

end Command

namespace Broker

variable {broker middle after : Broker}
  {takesBack takesMore : Entity → Tie → Prop}
  {deletes deletesMore : Entity → Prop}

/-- The tie was taken back, or it was to a queue that has gone. -/
def Severed (takesBack : Entity → Tie → Prop) (after : Broker)
    (entity : Entity) (tie : Tie) : Prop :=
  takesBack entity tie ∨
    ∃ key queue, tie = .bound key queue ∧
      after.standing? (.queue queue) = none

/-- Entities only lose ties or go, by themselves or on demand. -/
def Fades (takesBack : Entity → Tie → Prop) (deletes : Entity → Prop)
    (broker after : Broker) : Prop :=
  ∀ entity, Fading (Severed takesBack after entity) (deletes entity)
    (broker.standing? entity) (after.standing? entity)

namespace Fades

theorem of_same (hsame : ∀ entity,
    after.standing? entity = broker.standing? entity) :
    Fades takesBack deletes broker after := by
  intro entity
  rw [hsame]
  exact .refl _ _ _

theorem refl (broker : Broker) : Fades takesBack deletes broker broker :=
  of_same fun _ => rfl

theorem mono (h : Fades takesBack deletes broker after)
    (htakes : ∀ entity tie, takesBack entity tie → takesMore entity tie)
    (hdeletes : ∀ entity, deletes entity → deletesMore entity) :
    Fades takesMore deletesMore broker after :=
  fun entity => (h entity).mono (fun tie => Or.imp_left (htakes entity tie))
    (hdeletes entity)

theorem trans (hfirst : Fades takesBack deletes broker middle)
    (hsecond : Fades takesBack deletes middle after) :
    Fades takesBack deletes broker after := by
  intro entity
  refine .trans ((hfirst entity).mono (fun tie hsevered => ?_) id)
    (hsecond entity)
  -- A queue that has gone does not come back.
  refine hsevered.imp_right ?_
  rintro ⟨key, queue, rfl, hgone⟩
  have hlater := hsecond (.queue queue)
  rw [hgone] at hlater
  exact ⟨key, queue, rfl, hlater.eq_none⟩

end Fades

/-- What is left when an entity has been asked to go by itself. -/
structure AutoDeletes (target : Entity) (broker after : Broker) : Prop where
  goes : broker.standing? target = some .abandoned →
    after.standing? target = none
  stays : broker.standing? target ≠ some .abandoned →
    after.standing? target = broker.standing? target
  others : ∀ entity, entity ≠ target →
    Fading (Severed (fun _ _ => False) after entity) False
      (broker.standing? entity) (after.standing? entity)

theorem standing_eq_abandoned_of_queue {queue : Queue} :
    queue.standing = .abandoned ↔
      (queue.settings.flags.autoDelete && queue.declared.isEmpty) = true := by
  simp [Queue.standing, Standing.abandoned, MemberSet.isEmpty]

theorem standing_eq_abandoned_of_route {route : Route} :
    route.standing = .abandoned ↔
      (route.flags.autoDelete && route.isEmpty) = true := by
  simp [Route.standing, Standing.abandoned, Route.isEmpty,
    MemberIndex.pairs_eq_nil_iff]

theorem standing_eq_abandoned_of_channel {channel : Channel} :
    channel.standing = .abandoned ↔
      (channel.flags.autoDelete && channel.isUnused) = true := by
  simp [Channel.standing, Standing.abandoned, Channel.isUnused,
    MemberIndex.pairs_eq_nil_iff]

theorem standing?_removeRoute (hnumbered : broker.Numbered) {id : RouteId}
    {route : Route} (found : broker.routes.find? id = some route)
    (entity : Entity) :
    (broker.removeRoute route).standing? entity =
      if entity = .route id then none else broker.standing? entity := by
  have hid : Named.id route = id := hnumbered.routes.id_eq found
  cases entity with
  | queue other =>
      rw [if_neg Entity.noConfusion]
      show ((broker.removeRoute route).queues.find? other).map _ = _
      unfold removeRoute
      apply List.foldlRecOn (motive := fun queues : Registry QueueId Queue =>
        (queues.find? other).map Queue.standing =
          broker.standing? (.queue other))
      · rfl
      · rintro queues hqueues ⟨key, queue⟩ -
        show ((queues.update queue fun entry =>
          entry.unlinkRoute route.id key).find? other).map Queue.standing = _
        rw [Registry.map_find?_update]
        · exact hqueues
        · exact fun _ => rfl
  | route other =>
      show ((broker.routes.erase route).find? other).map _ = _
      rw [Registry.find?_erase, hid]
      by_cases hsame : other = id
      · rw [if_pos hsame, if_pos (congrArg Entity.route hsame)]
        rfl
      · rw [if_neg hsame, if_neg fun h => hsame (Entity.route.inj h)]
        rfl
  | channel other =>
      rw [if_neg Entity.noConfusion]
      rfl

theorem standing?_removeChannel (hnumbered : broker.Numbered) {id : ChannelId}
    {channel : Channel} (found : broker.channels.find? id = some channel)
    (entity : Entity) :
    (broker.removeChannel channel).standing? entity =
      if entity = .channel id then none else broker.standing? entity := by
  have hid : Named.id channel = id := hnumbered.channels.id_eq found
  cases entity with
  | queue other =>
      rw [if_neg Entity.noConfusion]
      rfl
  | route other =>
      rw [if_neg Entity.noConfusion]
      rfl
  | channel other =>
      show ((broker.channels.erase channel).find? other).map _ = _
      rw [Registry.find?_erase, hid]
      by_cases hsame : other = id
      · rw [if_pos hsame, if_pos (congrArg Entity.channel hsame)]
        rfl
      · rw [if_neg hsame, if_neg fun h => hsame (Entity.channel.inj h)]
        rfl

theorem standing?_ite {target : Entity} {standing : Standing} {removed : Broker}
    {goes : Bool} (hthere : broker.standing? target = some standing)
    (hgoes : standing = .abandoned ↔ goes = true)
    (hremoved : ∀ entity, removed.standing? entity =
      if entity = target then none else broker.standing? entity)
    (entity : Entity) :
    standing? (if goes then removed else broker) entity =
      if entity = target ∧ broker.standing? entity = some .abandoned then none
      else broker.standing? entity := by
  cases goes with
  | false =>
      rw [if_neg Bool.false_ne_true, if_neg]
      rintro ⟨rfl, habandoned⟩
      rw [hthere] at habandoned
      exact Bool.false_ne_true (hgoes.mp (Option.some.inj habandoned))
  | true =>
      rw [hgoes.mpr rfl] at hthere
      rw [if_pos rfl, hremoved]
      by_cases hsame : entity = target
      · rw [if_pos hsame, if_pos ⟨hsame, hsame ▸ hthere⟩]
      · rw [if_neg hsame, if_neg fun h => hsame h.1]

theorem standing?_autoDeleteRoute (hnumbered : broker.Numbered) (id : RouteId)
    (entity : Entity) :
    (broker.autoDeleteRoute id).standing? entity =
      if entity = .route id ∧ broker.standing? entity = some .abandoned then
        none
      else broker.standing? entity := by
  unfold autoDeleteRoute
  split
  · rename_i habsent
    rw [if_neg]
    rintro ⟨rfl, hthere⟩
    rw [standing?, habsent] at hthere
    cases hthere
  · rename_i route found
    have hthere : broker.standing? (.route id) = some route.standing :=
      congrArg (Option.map Route.standing) found
    exact standing?_ite hthere standing_eq_abandoned_of_route
      (standing?_removeRoute hnumbered found) entity

theorem standing?_autoDeleteChannel (hnumbered : broker.Numbered)
    (id : ChannelId) (entity : Entity) :
    (broker.autoDeleteChannel id).standing? entity =
      if entity = .channel id ∧ broker.standing? entity = some .abandoned then
        none
      else broker.standing? entity := by
  unfold autoDeleteChannel
  split
  · rename_i habsent
    rw [if_neg]
    rintro ⟨rfl, hthere⟩
    rw [standing?, habsent] at hthere
    cases hthere
  · rename_i channel found
    have hthere : broker.standing? (.channel id) = some channel.standing :=
      congrArg (Option.map Channel.standing) found
    exact standing?_ite hthere standing_eq_abandoned_of_channel
      (standing?_removeChannel hnumbered found) entity

theorem AutoDeletes.of_standings {target : Entity}
    (h : ∀ entity, after.standing? entity =
      if entity = target ∧ broker.standing? entity = some .abandoned then none
      else broker.standing? entity) :
    AutoDeletes target broker after where
  goes hgoes := by rw [h, if_pos ⟨rfl, hgoes⟩]
  stays hstays := by rw [h, if_neg fun hgoes => hstays hgoes.2]
  others entity hother := by
    rw [h, if_neg fun hgoes => hother hgoes.1]
    exact .refl _ _ _

theorem AutoDeletes.not_abandoned {target : Entity}
    (h : AutoDeletes target broker after) :
    after.standing? target ≠ some .abandoned := by
  by_cases habandoned : broker.standing? target = some .abandoned
  · rw [h.goes habandoned]
    exact nofun
  · rw [h.stays habandoned]
    exact habandoned

theorem AutoDeletes.fades_of_not_abandoned {target : Entity}
    (h : AutoDeletes target broker after)
    (hstays : broker.standing? target ≠ some .abandoned) :
    Fades takesBack (fun _ => False) broker after := by
  intro entity
  by_cases hsame : entity = target
  · rw [hsame, h.stays hstays]
    exact .refl _ _ _
  · exact (h.others entity hsame).mono
      (fun _ => Or.imp_left False.elim) id

def Binds (routes : Registry RouteId Route) (id : RouteId) (queue : QueueId)
    (key : String) : Prop :=
  routes.entities.Holds id fun route => route.isBound queue key = true

theorem binds_update_unlink {routes : Registry RouteId Route}
    {target id : RouteId} {queue other : QueueId} {key another : String} :
    Binds (routes.update target fun route => route.unlink queue key) id other
        another ↔
      Binds routes id other another ∧
        ¬ (id = target ∧ another = key ∧ other = queue) := by
  unfold Binds
  refine AssocList.holds_modify.trans ?_
  by_cases hsame : id = target
  · simp only [hsame, if_true, Route.isBound_unlink, true_and]
    constructor
    · rintro ⟨route, found, hbound, hkept⟩
      exact ⟨⟨route, found, hbound⟩, hkept⟩
    · rintro ⟨⟨route, found, hbound⟩, hkept⟩
      exact ⟨route, found, hbound, hkept⟩
  · simp [hsame]

theorem mem_snd_unbindRemoved {routes : Registry RouteId Route}
    {queue : QueueId} {key : String} {target id : RouteId}
    {touched : List RouteId} :
    id ∈ (unbindRemoved queue (routes, touched) (key, target)).2 ↔
      id ∈ touched ∨ id = target ∧ Binds routes id queue key := by
  unfold unbindRemoved Binds
  dsimp only
  split
  · rename_i habsent
    refine ⟨.inl, fun h => h.resolve_right ?_⟩
    rintro ⟨rfl, hbinds⟩
    exact AssocList.not_holds_of_get? habsent hbinds
  · rename_i route found
    have hbinds : ∀ id, id = target → (routes.entities.Holds id
        (fun route => route.isBound queue key = true) ↔
          route.isBound queue key = true) := by
      rintro id rfl
      exact AssocList.holds_iff_of_get? found
    unfold Route.unbind
    by_cases hbound : route.isBound queue key = true
    · rw [if_pos hbound]
      simp only [List.mem_append, List.mem_singleton]
      exact or_congr_right
        ⟨fun h => ⟨h, (hbinds id h).mpr hbound⟩, And.left⟩
    · rw [if_neg hbound]
      refine ⟨.inl, fun h => h.resolve_right fun hnew => ?_⟩
      exact hbound ((hbinds id hnew.1).mp hnew.2)

theorem mem_snd_foldl_unbindRemoved {routes : Registry RouteId Route}
    {issued : RouteId → Prop} (hkeyed : routes.Keyed issued) {queue : QueueId}
    {bindings : List (String × RouteId)} {touched : List RouteId}
    {id : RouteId} :
    id ∈ (bindings.foldl (unbindRemoved queue) (routes, touched)).2 ↔
      id ∈ touched ∨
        ∃ key, (key, id) ∈ bindings ∧ Binds routes id queue key := by
  induction bindings generalizing routes touched with
  | nil => simp
  | cons binding rest ih =>
      obtain ⟨key, target⟩ := binding
      have hnext : (routes.update target fun route =>
          route.unlink queue key).Keyed issued :=
        hkeyed.update _ fun _ _ => rfl
      have hnoted := @mem_snd_unbindRemoved routes queue key target id touched
      have hpair : unbindRemoved queue (routes, touched) (key, target) =
          (routes.update target fun route => route.unlink queue key,
            (unbindRemoved queue (routes, touched) (key, target)).2) :=
        Prod.ext (fst_unbindRemoved hkeyed queue touched (key, target)) rfl
      rw [List.foldl_cons, hpair, ih hnext, hnoted]
      simp only [binds_update_unlink, List.mem_cons, Prod.mk.injEq]
      constructor
      · rintro ((hold | ⟨rfl, hbinds⟩) | ⟨another, hmem, hbinds, -⟩)
        · exact .inl hold
        · exact .inr ⟨key, .inl ⟨rfl, rfl⟩, hbinds⟩
        · exact .inr ⟨another, .inr hmem, hbinds⟩
      · rintro (hold | ⟨another, ⟨rfl, rfl⟩ | hmem, hbinds⟩)
        · exact .inl (.inl hold)
        · exact .inl (.inr ⟨rfl, hbinds⟩)
        · by_cases hsame : id = target ∧ another = key
          · obtain ⟨rfl, rfl⟩ := hsame
            exact .inl (.inr ⟨rfl, hbinds⟩)
          · exact .inr ⟨another, hmem, hbinds,
              fun h => hsame ⟨h.1, h.2.1⟩⟩

theorem find?_foldl_unlink {routes : Registry RouteId Route}
    (queue : QueueId) (bindings : List (String × RouteId)) {id : RouteId}
    {route : Route} (found : routes.find? id = some route) :
    ∃ next, (bindings.foldl (fun routes binding =>
        routes.update binding.2 fun route => route.unlink queue binding.1)
        routes).find? id = some next ∧
      next.flags = route.flags ∧
      ∀ key other, next.isBound other key = true ↔
        route.isBound other key = true ∧
          ¬ (other = queue ∧ (key, id) ∈ bindings) := by
  induction bindings generalizing routes route with
  | nil => exact ⟨route, found, rfl, by simp⟩
  | cons binding rest ih =>
      obtain ⟨another, target⟩ := binding
      rw [List.foldl_cons]
      by_cases hsame : id = target
      · subst hsame
        obtain ⟨next, hnext, hflags, hbound⟩ := ih
          (Registry.find?_update_self found fun route =>
            route.unlink queue another)
        refine ⟨next, hnext, hflags, fun key other => ?_⟩
        rw [hbound, Route.isBound_unlink]
        simp only [List.mem_cons, Prod.mk.injEq]
        tauto
      · have hkept := routes.find?_update_ne hsame fun route =>
          route.unlink queue another
        obtain ⟨next, hnext, hflags, hbound⟩ := ih (hkept.trans found)
        refine ⟨next, hnext, hflags, fun key other => ?_⟩
        rw [hbound]
        simp [hsame]

theorem standing?_foldl_autoDeleteRoute (hnumbered : broker.Numbered)
    (ids : List RouteId) (entity : Entity) :
    (ids.foldl autoDeleteRoute broker).standing? entity =
      if entity ∈ ids.map Entity.route ∧
          broker.standing? entity = some .abandoned then none
      else broker.standing? entity := by
  induction ids generalizing broker with
  | nil => simp
  | cons id rest ih =>
      have hnext := (withdrawals_autoDeleteRoute broker id).numbered hnumbered
      rw [List.foldl_cons, ih hnext, standing?_autoDeleteRoute hnumbered]
      by_cases habandoned : broker.standing? entity = some .abandoned
      · by_cases hsame : entity = .route id <;> simp [habandoned, hsame]
      · simp [habandoned]

theorem removeQueue_eq (hnumbered : broker.Numbered) (queue : Queue) :
    broker.removeQueue queue =
      (queue.bindings.pairs.foldl (unbindRemoved queue.id)
        (broker.routes, [])).2.foldl autoDeleteRoute
          (broker.detachQueue queue) := by
  unfold removeQueue detachQueue
  dsimp only
  rw [fst_foldl_unbindRemoved hnumbered.routes]

theorem standing?_detachQueue_absent (queue : Queue) {id : RouteId}
    (habsent : broker.routes.find? id = none) :
    (broker.detachQueue queue).standing? (.route id) = none := by
  have hnone : (broker.detachQueue queue).routes.find? id = none := by
    unfold detachQueue
    apply List.foldlRecOn (motive := fun routes : Registry RouteId Route =>
      routes.find? id = none)
    · exact habsent
    · intro routes hroutes binding _
      rw [Registry.find?_update, hroutes]
      exact ite_self _
  rw [standing?, hnone]
  rfl

theorem mem_pairs_of_isBound (h : broker.Consistent) {id : QueueId}
    {queue : Queue} (foundQueue : broker.queues.find? id = some queue)
    {routeId : RouteId} {route : Route}
    (found : broker.routes.find? routeId = some route) {key : String}
    (hbound : route.isBound id key = true) :
    (key, routeId) ∈ queue.bindings.pairs := by
  have hback := (h.bindings key routeId id).mp ⟨route, found, hbound⟩
  exact MemberIndex.mem_pairs.mpr
    ((AssocList.holds_iff_of_get? foundQueue).mp hback)

theorem standing?_detachQueue (h : broker.Consistent) {id : QueueId}
    {queue : Queue} (foundQueue : broker.queues.find? id = some queue)
    {routeId : RouteId} {route : Route}
    (found : broker.routes.find? routeId = some route) :
    ∃ now, (broker.detachQueue queue).standing? (.route routeId) = some now ∧
      now.autoDelete = route.standing.autoDelete ∧
      ∀ tie, tie ∈ now.ties ↔
        tie ∈ route.standing.ties ∧ ¬ ∃ key, tie = .bound key id := by
  have hid : queue.id = id := h.numbered.queues.id_eq foundQueue
  obtain ⟨next, hnext, hflags, hbound⟩ :=
    find?_foldl_unlink queue.id queue.bindings.pairs found
  refine ⟨next.standing, congrArg (Option.map Route.standing) hnext,
    congrArg RouteFlags.autoDelete hflags, fun tie => ?_⟩
  rw [Route.mem_ties, Route.mem_ties]
  constructor
  · rintro ⟨key, other, hkept, rfl⟩
    obtain ⟨hold, hother⟩ := (hbound key other).mp hkept
    refine ⟨⟨key, other, hold, rfl⟩, ?_⟩
    rintro ⟨another, heq⟩
    cases heq
    exact hother ⟨hid.symm, mem_pairs_of_isBound h foundQueue found hold⟩
  · rintro ⟨⟨key, other, hold, rfl⟩, hkept⟩
    refine ⟨key, other, (hbound key other).mpr ⟨hold, fun hlost => ?_⟩, rfl⟩
    exact hkept ⟨key, by rw [hlost.1, hid]⟩

theorem mem_touched_iff (h : broker.Consistent) {id : QueueId}
    {queue : Queue} (foundQueue : broker.queues.find? id = some queue)
    {routeId : RouteId} {route : Route}
    (found : broker.routes.find? routeId = some route) :
    routeId ∈ (queue.bindings.pairs.foldl (unbindRemoved queue.id)
        (broker.routes, [])).2 ↔
      ∃ tie ∈ route.standing.ties, ∃ key, tie = .bound key id := by
  have hid : queue.id = id := h.numbered.queues.id_eq foundQueue
  rw [mem_snd_foldl_unbindRemoved h.numbered.routes, hid]
  constructor
  · rintro (hnone | ⟨key, -, hbinds⟩)
    · exact absurd hnone List.not_mem_nil
    · have hbound := (AssocList.holds_iff_of_get? found).mp hbinds
      exact ⟨_, Route.mem_ties.mpr ⟨key, id, hbound, rfl⟩, key, rfl⟩
  · rintro ⟨_, htie, key, rfl⟩
    obtain ⟨_, _, hbound, heq⟩ := Route.mem_ties.mp htie
    cases heq
    exact .inr ⟨key, mem_pairs_of_isBound h foundQueue found hbound,
      route, found, hbound⟩

/-- Removing a queue takes its own standing away, and from routes their bindings
of it. Routes that have been left without any go too. -/
theorem fades_removeQueue (h : broker.Consistent) {id : QueueId} {queue : Queue}
    (found : broker.queues.find? id = some queue) :
    (broker.removeQueue queue).standing? (.queue id) = none ∧
      Fades takesBack (fun entity => entity = .queue id) broker
        (broker.removeQueue queue) := by
  have hid : queue.id = id := h.numbered.queues.id_eq found
  have hdetached := h.numbered.withdrawal (.dropQueue found)
  have hstanding := standing?_foldl_autoDeleteRoute hdetached
    (queue.bindings.pairs.foldl (unbindRemoved queue.id)
      (broker.routes, [])).2
  rw [← removeQueue_eq h.numbered] at hstanding
  have hqueues : ∀ other : QueueId,
      (broker.removeQueue queue).standing? (.queue other) =
        if other = id then none else broker.standing? (.queue other) := by
    intro other
    rw [hstanding, if_neg (by simp)]
    show ((broker.queues.erase queue).find? other).map Queue.standing = _
    rw [Registry.find?_erase, show Named.id queue = id from hid]
    split <;> rfl
  have hgone : (broker.removeQueue queue).standing? (.queue id) = none := by
    rw [hqueues, if_pos rfl]
  refine ⟨hgone, fun entity => ?_⟩
  cases entity with
  | queue other =>
      rw [hqueues]
      split
      · rename_i hsame
        subst hsame
        rw [standing?, found]
        exact .deleted rfl _
      · exact .refl _ _ _
  | channel other =>
      rw [hstanding, if_neg (by simp)]
      exact .refl _ _ _
  | route other =>
      cases foundRoute : broker.routes.find? other with
      | none =>
          rw [hstanding, standing?_detachQueue_absent queue foundRoute,
            standing?, foundRoute, if_neg (by simp)]
          exact .absent
      | some route =>
          obtain ⟨now, hnow, hauto, hties⟩ :=
            standing?_detachQueue h found foundRoute
          have htouched := mem_touched_iff h found foundRoute
          rw [hstanding, hnow, standing?, foundRoute]
          refine .of_lost hauto hties ?_ ?_ ?_
          · rintro tie ⟨key, rfl⟩
            exact .inr ⟨key, id, rfl, hgone⟩
          · intro hlost habandoned
            rw [if_pos]
            exact ⟨List.mem_map_of_mem (htouched.mpr hlost), habandoned ▸ rfl⟩
          · intro hstays
            rw [if_neg]
            rintro ⟨hmem, habandoned⟩
            obtain ⟨_, hmem, heq⟩ := List.mem_map.mp hmem
            cases heq
            exact hstays ⟨htouched.mp hmem, Option.some.inj habandoned⟩

theorem autoDeletes_queue (h : broker.Consistent) (id : QueueId) :
    AutoDeletes (.queue id) broker (broker.autoDeleteQueue id) := by
  unfold autoDeleteQueue
  split
  · rename_i habsent
    refine ⟨fun hgoes => ?_, fun _ => rfl, fun _ _ => .refl _ _ _⟩
    rw [standing?, habsent] at hgoes
    cases hgoes
  · rename_i queue found
    have hthere : broker.standing? (.queue id) = some queue.standing :=
      congrArg (Option.map Queue.standing) found
    split
    · rename_i hgoes
      obtain ⟨hgone, hfades⟩ := fades_removeQueue h found
      refine ⟨fun _ => hgone, fun hstays => ?_, fun entity hother => ?_⟩
      · rw [hthere, standing_eq_abandoned_of_queue.mpr hgoes] at hstays
        exact absurd rfl hstays
      · exact (hfades entity).mono (fun _ h => h) hother
    · rename_i hstays
      refine ⟨fun hgoes => ?_, fun _ => rfl, fun _ _ => .refl _ _ _⟩
      rw [hthere] at hgoes
      exact absurd
        (standing_eq_abandoned_of_queue.mp (Option.some.inj hgoes)) hstays

theorem AutoDeletes.fades {target : Entity} {tie : Tie}
    {before now : Standing}
    (h : AutoDeletes target middle after)
    (hbefore : broker.standing? target = some before)
    (hnow : middle.standing? target = some now)
    (hothers : ∀ entity, entity ≠ target →
      middle.standing? entity = broker.standing? entity)
    (hauto : now.autoDelete = before.autoDelete)
    (hties : ∀ other, other ∈ now.ties ↔ other ∈ before.ties ∧ other ≠ tie)
    (hhad : tie ∈ before.ties) (htakes : takesBack target tie) :
    Fades takesBack (fun _ => False) broker after := by
  intro entity
  by_cases hsame : entity = target
  · subst hsame
    rw [hbefore]
    refine .of_lost hauto hties ?_ ?_ ?_
    · rintro _ rfl
      exact .inl htakes
    · intro _ habandoned
      exact h.goes (habandoned ▸ hnow)
    · intro hstays
      rw [h.stays, hnow]
      rw [hnow]
      intro habandoned
      exact hstays ⟨⟨tie, hhad, rfl⟩, Option.some.inj habandoned⟩
  · rw [← hothers entity hsame]
    exact (h.others entity hsame).mono
      (fun _ => Or.imp_left False.elim) id

end Broker

end MessageBroker
