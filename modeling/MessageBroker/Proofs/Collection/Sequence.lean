import MessageBroker.Collection.Sequence

/-! A sequence stands for a row of handles and values, and every operation on
its links is an operation on that row. -/

namespace MessageBroker

universe u

namespace Arena

variable {α : Type u}

theorem vacant_of_following {arena : Arena α} {slots : Nat → Handle}
    (hpolicy : arena.policy = .following slots)
    (hvacant : arena.get? (slots arena.entered) = none) :
    arena.vacant = slots arena.entered := by
  unfold vacant
  rw [hpolicy]
  refine if_neg fun hused => ?_
  rw [List.getElem?_map] at hused
  unfold get? at hvacant
  obtain ⟨slot, hslot, hfull⟩ := Option.map_eq_some_iff.mp hused
  rw [hslot, Option.join_some] at hvacant
  rw [hvacant] at hfull
  cases hfull

theorem size_fill {arena : Arena α} {slot : Handle} {value : α}
    (hvacant : arena.get? slot = none) :
    (arena.fill slot value).size = arena.size + 1 := by
  obtain ⟨slots⟩ := arena
  simp only [get?, size, fill] at *
  induction slot generalizing slots with
  | zero =>
      cases slots with
      | nil => rfl
      | cons other rest =>
          obtain rfl : other = none := by simpa using hvacant
          simp [fillAt]
  | succ slot ih =>
      cases slots with
      | nil => simpa [fillAt] using ih [] rfl
      | cons other rest =>
          have hrest := ih rest (by simpa using hvacant)
          simp only [fillAt, List.countP_cons, hrest]
          omega

theorem size_modify (arena : Arena α) (handle : Handle) (change : α → α) :
    (arena.modify handle change).size = arena.size := by
  obtain ⟨slots⟩ := arena
  simp only [size, modify]
  induction slots generalizing handle with
  | nil => simp
  | cons slot rest ih =>
      cases handle with
      | zero => simp [List.countP_cons]
      | succ handle => simp [List.countP_cons, ih]

theorem size_erase {arena : Arena α} {handle : Handle} {value : α}
    (hget : arena.get? handle = some value) :
    (arena.erase handle).size + 1 = arena.size := by
  obtain ⟨slots⟩ := arena
  simp only [size, erase, get?] at *
  induction slots generalizing handle with
  | nil => simp at hget
  | cons slot rest ih =>
      cases handle with
      | zero =>
          obtain rfl : slot = some value := by simpa using hget
          simp
      | succ handle =>
          have hrest := @ih handle (by simpa using hget)
          simp only [List.set_cons_succ, List.countP_cons]
          omega

end Arena

namespace Sequence

variable {α : Type u}

def firstHandle? (row : List (Handle × α)) : Option Handle :=
  row.head?.map Prod.fst

def lastHandle? (row : List (Handle × α)) : Option Handle :=
  row.getLast?.map Prod.fst

/-- The link that a handle has in a row, where the row stands between two
further handles. -/
def linkIn (older newer : Option Handle) :
    List (Handle × α) → Handle → Option (Link α)
  | [], _ => none
  | (first, value) :: rest, handle =>
      if handle = first then some ⟨value, (firstHandle? rest).or newer, older⟩
      else linkIn (some first) newer rest handle

@[simp] theorem firstHandle?_append (front back : List (Handle × α)) :
    firstHandle? (front ++ back) =
      (firstHandle? front).or (firstHandle? back) := by
  cases front <;> simp [firstHandle?]

@[simp] theorem lastHandle?_cons (entry : Handle × α)
    (rest : List (Handle × α)) :
    lastHandle? (entry :: rest) = (lastHandle? rest).or (some entry.1) := by
  cases hlast : rest.getLast? <;> simp [lastHandle?, List.getLast?_cons, hlast]

@[simp] theorem lastHandle?_append (front back : List (Handle × α)) :
    lastHandle? (front ++ back) =
      (lastHandle? back).or (lastHandle? front) := by
  induction front with
  | nil => exact Option.or_none.symm
  | cons entry rest ih => simp [ih]

@[simp] theorem firstHandle?_eq_none_iff {row : List (Handle × α)} :
    firstHandle? row = none ↔ row = [] := by
  simp [firstHandle?]

@[simp] theorem lastHandle?_eq_none_iff {row : List (Handle × α)} :
    lastHandle? row = none ↔ row = [] := by
  simp [lastHandle?]

theorem mem_of_firstHandle? {row : List (Handle × α)} {handle : Handle}
    (hfirst : firstHandle? row = some handle) : handle ∈ row.map Prod.fst := by
  obtain ⟨entry, hentry, rfl⟩ := Option.map_eq_some_iff.mp hfirst
  exact List.mem_map_of_mem (List.mem_of_head? hentry)

theorem mem_of_lastHandle? {row : List (Handle × α)} {handle : Handle}
    (hlast : lastHandle? row = some handle) : handle ∈ row.map Prod.fst := by
  obtain ⟨entry, hentry, rfl⟩ := Option.map_eq_some_iff.mp hlast
  exact List.mem_map_of_mem (List.mem_of_getLast? hentry)

theorem linkIn_eq_none_iff {older newer : Option Handle}
    {row : List (Handle × α)} {handle : Handle} :
    linkIn older newer row handle = none ↔ handle ∉ row.map Prod.fst := by
  induction row generalizing older with
  | nil => simp [linkIn]
  | cons entry rest ih =>
      obtain ⟨first, value⟩ := entry
      by_cases hhandle : handle = first
      · simp [linkIn, hhandle]
      · simp [linkIn, hhandle, ih]

theorem linkIn_append (older newer : Option Handle)
    (front back : List (Handle × α)) (handle : Handle) :
    linkIn older newer (front ++ back) handle =
      (linkIn older ((firstHandle? back).or newer) front handle).or
        (linkIn ((lastHandle? front).or older) newer back handle) := by
  induction front generalizing older with
  | nil => simp [linkIn, lastHandle?]
  | cons entry rest ih =>
      obtain ⟨first, value⟩ := entry
      by_cases hhandle : handle = first
      · simp [linkIn, hhandle, Option.or_assoc]
      · simp [linkIn, hhandle, ih]

theorem linkIn_newer (older newer after : Option Handle)
    {row : List (Handle × α)} (hnodup : (row.map Prod.fst).Nodup)
    (handle : Handle) :
    linkIn older after row handle =
      if lastHandle? row = some handle then
        (linkIn older newer row handle).map fun link =>
          { link with newer := after }
      else linkIn older newer row handle := by
  induction row generalizing older with
  | nil => simp [linkIn]
  | cons entry rest ih =>
      obtain ⟨first, value⟩ := entry
      obtain ⟨hfirst, hrest⟩ := List.nodup_cons.mp hnodup
      by_cases hhandle : handle = first
      · subst hhandle
        cases rest with
        | nil => simp [linkIn, firstHandle?, lastHandle?]
        | cons second more =>
            have hlast : lastHandle? (second :: more) ≠ some handle :=
              fun h => hfirst (mem_of_lastHandle? h)
            cases hlast' : lastHandle? (second :: more) with
            | none => simp at hlast'
            | some last =>
                rw [lastHandle?_cons, hlast', Option.some_or,
                  if_neg (hlast' ▸ hlast)]
                simp [linkIn, firstHandle?]
      · have hother : first ≠ handle := Ne.symm hhandle
        have hlast : lastHandle? ((first, value) :: rest) = some handle ↔
            lastHandle? rest = some handle := by
          cases h : lastHandle? rest <;> simp [h, hother]
        simp only [linkIn, if_neg hhandle, hlast]
        exact ih (some first) hrest

theorem linkIn_older (older newer before : Option Handle)
    (row : List (Handle × α)) (handle : Handle) :
    linkIn before newer row handle =
      if firstHandle? row = some handle then
        (linkIn older newer row handle).map fun link =>
          { link with older := before }
      else linkIn older newer row handle := by
  cases row with
  | nil => simp [linkIn]
  | cons entry rest =>
      obtain ⟨first, value⟩ := entry
      by_cases hhandle : handle = first
      · simp [linkIn, firstHandle?, hhandle]
      · have hother : first ≠ handle := Ne.symm hhandle
        simp [linkIn, firstHandle?, hhandle, hother]

theorem value_linkIn_iff {older newer : Option Handle}
    {row : List (Handle × α)} (hnodup : (row.map Prod.fst).Nodup)
    {handle : Handle} {value : α} :
    (linkIn older newer row handle).map Link.value = some value ↔
      (handle, value) ∈ row := by
  induction row generalizing older with
  | nil => simp [linkIn]
  | cons entry rest ih =>
      obtain ⟨first, current⟩ := entry
      obtain ⟨hfirst, hrest⟩ := List.nodup_cons.mp hnodup
      by_cases hhandle : handle = first
      · subst hhandle
        have habsent : (handle, value) ∉ rest :=
          fun hmem => hfirst (List.mem_map.mpr ⟨_, hmem, rfl⟩)
        simp [linkIn, habsent, eq_comm]
      · simp only [linkIn, List.mem_cons, Prod.mk.injEq, hhandle, false_and,
          false_or]
        exact ih hrest

theorem linkIn_removed {front back : List (Handle × α)} {handle : Handle}
    {value : α}
    (hnodup : ((front ++ (handle, value) :: back).map Prod.fst).Nodup)
    {other : Handle} (hother : other ≠ handle) :
    linkIn none none (front ++ back) other =
      let opened :=
        if firstHandle? back = some other then
          (linkIn none none (front ++ (handle, value) :: back) other).map
            fun neighbour => { neighbour with older := lastHandle? front }
        else linkIn none none (front ++ (handle, value) :: back) other
      if lastHandle? front = some other then
        opened.map fun neighbour =>
          { neighbour with newer := firstHandle? back }
      else opened := by
  rw [List.map_append, List.nodup_append] at hnodup
  obtain ⟨hfront, hback, hdisjoint⟩ := hnodup
  have hback := (List.nodup_cons.mp hback).2
  rw [linkIn_append, linkIn_append, Option.or_none, Option.or_none,
    linkIn_newer none (some handle) _ hfront,
    linkIn_older (some handle) none _ back]
  simp only [linkIn, if_neg hother, firstHandle?, List.head?_cons,
    Option.map_some, Option.some_or]
  by_cases hlast : lastHandle? front = some other
  · have habsent : other ∉ back.map Prod.fst := fun hmem =>
      hdisjoint other (mem_of_lastHandle? hlast) other
        (List.mem_cons_of_mem _ hmem) rfl
    have hfirst : back.head?.map Prod.fst ≠ some other :=
      fun h => habsent (mem_of_firstHandle? h)
    simp [hlast, hfirst, linkIn_eq_none_iff.mpr habsent]
  · by_cases hfirst : back.head?.map Prod.fst = some other
    · have habsent : other ∉ front.map Prod.fst := fun hmem =>
        hdisjoint other hmem other
          (List.mem_cons_of_mem _ (mem_of_firstHandle? hfirst)) rfl
      simp [hlast, hfirst, linkIn_eq_none_iff.mpr habsent]
    · simp [hlast, hfirst]

/-- Following the links towards the newest end yields these entries and then
ends. Every slot on the way is in use. -/
inductive Yields (links : Arena (Link α)) :
    Option Handle → List (Handle × α) → Prop
  | done : Yields links none []
  | next {handle : Handle} {link : Link α} {rest : List (Handle × α)}
      (hlink : links.get? handle = some link)
      (hrest : Yields links link.newer rest) :
      Yields links (some handle) ((handle, link.value) :: rest)

theorem Yields.walk_eq {links : Arena (Link α)} {first : Option Handle}
    {row : List (Handle × α)} (h : Yields links first row) :
    walk links row.length first = row := by
  induction h with
  | done => rfl
  | next hlink _ ih => simp [walk, hlink, ih]

/-- Following the links of a row from its oldest end gives the row back. -/
theorem yields_of_linkIn {links : Arena (Link α)} (older : Option Handle)
    {row : List (Handle × α)} (hnodup : (row.map Prod.fst).Nodup)
    (hlinks : ∀ handle ∈ row.map Prod.fst,
      links.get? handle = linkIn older none row handle) :
    Yields links (firstHandle? row) row := by
  induction row generalizing older with
  | nil => exact .done
  | cons entry rest ih =>
      obtain ⟨first, value⟩ := entry
      obtain ⟨hfirst, hrest⟩ := List.nodup_cons.mp hnodup
      have hhead := hlinks first List.mem_cons_self
      simp only [linkIn, ↓reduceIte, Option.or_none] at hhead
      refine .next hhead (ih (some first) hrest fun handle hmem => ?_)
      have hne : handle ≠ first := fun heq => hfirst (heq ▸ hmem)
      rw [hlinks handle (List.mem_cons_of_mem _ hmem)]
      simp [linkIn, hne]

/-- The sequence is made of the links of this row and of nothing else. -/
structure Represents (sequence : Sequence α) (row : List (Handle × α)) :
    Prop where
  nodup : (row.map Prod.fst).Nodup
  links : ∀ handle, sequence.links.get? handle = linkIn none none row handle
  oldest : sequence.oldest = firstHandle? row
  newest : sequence.newest = lastHandle? row
  size : sequence.size = row.length

theorem represents_clear (sequence : Sequence α) :
    sequence.clear.1.Represents [] where
  nodup := List.nodup_nil
  links := sequence.links.get?_clear
  oldest := rfl
  newest := rfl
  size := rfl

theorem represents_empty (slots : SlotPolicy) :
    (empty slots : Sequence α).Represents [] :=
  (empty slots).represents_clear

theorem get?_setNewer (links : Arena (Link α)) (handle other : Handle)
    (newer : Option Handle) :
    (setNewer links handle newer).get? other =
      if some handle = some other then
        (links.get? other).map fun link => { link with newer := newer }
      else links.get? other := by
  rw [setNewer, Arena.get?_modify]
  simp only [Option.some.injEq, eq_comm]

theorem get?_setOlder (links : Arena (Link α)) (handle other : Handle)
    (older : Option Handle) :
    (setOlder links handle older).get? other =
      if some handle = some other then
        (links.get? other).map fun link => { link with older := older }
      else links.get? other := by
  rw [setOlder, Arena.get?_modify]
  simp only [Option.some.injEq, eq_comm]

theorem get?_enterNewest {sequence : Sequence α} {value : α}
    {slot handle : Handle} (hnewest : sequence.newest ≠ some slot) :
    (sequence.enterNewest slot value).links.get? handle =
      if handle = slot then some ⟨value, none, sequence.newest⟩
      else if sequence.newest = some handle then
        (sequence.links.get? handle).map fun link =>
          { link with newer := some slot }
      else sequence.links.get? handle := by
  unfold enterNewest
  cases hprevious : sequence.newest with
  | none =>
      simp only [Arena.get?_fill]
      rfl
  | some previous =>
      simp only [get?_setNewer, Arena.get?_fill]
      by_cases hslot : handle = slot
      · rw [if_pos hslot, if_pos hslot, if_neg (hslot ▸ hprevious ▸ hnewest)]
      · rw [if_neg hslot, if_neg hslot]

theorem get?_enterOldest {sequence : Sequence α} {value : α}
    {slot handle : Handle} (holdest : sequence.oldest ≠ some slot) :
    (sequence.enterOldest slot value).links.get? handle =
      if handle = slot then some ⟨value, sequence.oldest, none⟩
      else if sequence.oldest = some handle then
        (sequence.links.get? handle).map fun link =>
          { link with older := some slot }
      else sequence.links.get? handle := by
  unfold enterOldest
  cases hprevious : sequence.oldest with
  | none =>
      simp only [Arena.get?_fill]
      rfl
  | some previous =>
      simp only [get?_setOlder, Arena.get?_fill]
      by_cases hslot : handle = slot
      · rw [if_pos hslot, if_pos hslot, if_neg (hslot ▸ hprevious ▸ holdest)]
      · rw [if_neg hslot, if_neg hslot]

theorem size_enterNewest {sequence : Sequence α} {slot : Handle}
    (hvacant : sequence.links.get? slot = none) (value : α) :
    (sequence.enterNewest slot value).size = sequence.size + 1 := by
  unfold enterNewest
  cases sequence.newest with
  | none => exact Arena.size_fill hvacant
  | some previous =>
      exact (Arena.size_modify _ _ _).trans (Arena.size_fill hvacant)

theorem size_enterOldest {sequence : Sequence α} {slot : Handle}
    (hvacant : sequence.links.get? slot = none) (value : α) :
    (sequence.enterOldest slot value).size = sequence.size + 1 := by
  unfold enterOldest
  cases sequence.oldest with
  | none => exact Arena.size_fill hvacant
  | some previous =>
      exact (Arena.size_modify _ _ _).trans (Arena.size_fill hvacant)

theorem get?_bypass (links : Arena (Link α)) (link : Link α)
    (other : Handle) :
    (bypass links link).get? other =
      let opened :=
        if link.newer = some other then
          (links.get? other).map fun neighbour =>
            { neighbour with older := link.older }
        else links.get? other
      if link.older = some other then
        opened.map fun neighbour => { neighbour with newer := link.newer }
      else opened := by
  unfold bypass
  cases link.newer <;> cases link.older <;>
    simp only [get?_setNewer, get?_setOlder, reduceCtorEq, ↓reduceIte]

theorem size_bypass (links : Arena (Link α)) (link : Link α) :
    (bypass links link).size = links.size := by
  unfold bypass
  cases link.newer <;> cases link.older <;>
    simp only [setNewer, setOlder, Arena.size_modify]

namespace Represents

variable {sequence : Sequence α} {row : List (Handle × α)}

theorem yields (h : sequence.Represents row) :
    Yields sequence.links sequence.oldest row := by
  rw [h.oldest]
  exact yields_of_linkIn none h.nodup fun handle _ => h.links handle

theorem entries_eq (h : sequence.Represents row) : sequence.entries = row := by
  unfold entries
  rw [h.size]
  exact h.yields.walk_eq

theorem get?_iff (h : sequence.Represents row) {handle : Handle} {value : α} :
    sequence.get? handle = some value ↔ (handle, value) ∈ row := by
  unfold get?
  rw [h.links]
  exact value_linkIn_iff h.nodup

theorem value_unique (h : sequence.Represents row) {handle : Handle}
    {value other : α} (hvalue : (handle, value) ∈ row)
    (hother : (handle, other) ∈ row) : value = other := by
  rw [← h.get?_iff] at hvalue hother
  exact Option.some.inj (hvalue.symm.trans hother)

theorem vacant_iff (h : sequence.Represents row) {slot : Handle} :
    sequence.links.get? slot = none ↔ slot ∉ row.map Prod.fst := by
  rw [h.links]
  exact linkIn_eq_none_iff

theorem oldest_of_newest (h : sequence.Represents row) {last : Handle}
    (hnewest : sequence.newest = some last) :
    ∃ first, sequence.oldest = some first := by
  rw [h.newest] at hnewest
  rw [h.oldest]
  refine Option.ne_none_iff_exists'.mp fun hnone => ?_
  obtain rfl := firstHandle?_eq_none_iff.mp hnone
  cases hnewest

theorem newest_of_oldest (h : sequence.Represents row) {first : Handle}
    (holdest : sequence.oldest = some first) :
    ∃ last, sequence.newest = some last := by
  rw [h.oldest] at holdest
  rw [h.newest]
  refine Option.ne_none_iff_exists'.mp fun hnone => ?_
  obtain rfl := lastHandle?_eq_none_iff.mp hnone
  cases holdest

theorem enterNewest (h : sequence.Represents row) {slot : Handle}
    (hvacant : sequence.links.get? slot = none) (value : α) :
    (sequence.enterNewest slot value).Represents (row ++ [(slot, value)]) := by
  have hfresh := h.vacant_iff.mp hvacant
  have hlinks : ∀ handle,
      linkIn none none (row ++ [(slot, value)]) handle =
        if handle = slot then some ⟨value, none, lastHandle? row⟩
        else if lastHandle? row = some handle then
          (linkIn none none row handle).map fun link =>
            { link with newer := some slot }
        else linkIn none none row handle := by
    intro handle
    rw [linkIn_append, Option.or_none]
    by_cases hhandle : handle = slot
    · rw [linkIn_eq_none_iff.mpr (hhandle ▸ hfresh)]
      simp [linkIn, hhandle, firstHandle?]
    · rw [linkIn_newer none none _ h.nodup]
      simp [linkIn, hhandle, firstHandle?]
  refine {
    nodup := ?nodup
    links := ?links
    oldest := ?oldest
    newest := ?newest
    size := ?size
  }
  case nodup =>
    rw [List.map_append]
    exact (List.perm_append_singleton _ _).nodup_iff.mpr
      (List.nodup_cons.mpr ⟨hfresh, h.nodup⟩)
  case links =>
    intro handle
    have hnewest : sequence.newest ≠ some slot := by
      rw [h.newest]
      exact fun hlast => hfresh (mem_of_lastHandle? hlast)
    rw [get?_enterNewest hnewest, hlinks, h.newest, h.links]
  case oldest =>
    unfold Sequence.enterNewest
    cases hnewest : sequence.newest with
    | none =>
        obtain rfl := lastHandle?_eq_none_iff.mp (h.newest.symm.trans hnewest)
        rfl
    | some previous =>
        obtain ⟨first, hfirst⟩ := h.oldest_of_newest hnewest
        simp [← h.oldest, hfirst]
  case newest =>
    unfold Sequence.enterNewest
    cases sequence.newest <;> simp [lastHandle?]
  case size =>
    rw [size_enterNewest hvacant, h.size, List.length_append,
      List.length_singleton]

theorem pushNewest (h : sequence.Represents row) (value : α) :
    (sequence.pushNewest value).Represents
      (row ++ [(sequence.freshHandle, value)]) :=
  h.enterNewest sequence.links.get?_vacant value

theorem enterOldest (h : sequence.Represents row) {slot : Handle}
    (hvacant : sequence.links.get? slot = none) (value : α) :
    (sequence.enterOldest slot value).Represents ((slot, value) :: row) := by
  have hfresh := h.vacant_iff.mp hvacant
  refine {
    nodup := List.nodup_cons.mpr ⟨hfresh, h.nodup⟩
    links := ?links
    oldest := ?oldest
    newest := ?newest
    size := ?size
  }
  case links =>
    intro handle
    have holdest : sequence.oldest ≠ some slot := by
      rw [h.oldest]
      exact fun hfirst => hfresh (mem_of_firstHandle? hfirst)
    rw [get?_enterOldest holdest, h.oldest, h.links]
    simp only [linkIn, Option.or_none]
    rw [linkIn_older none none (some slot)]
  case oldest =>
    unfold Sequence.enterOldest
    cases sequence.oldest <;> rfl
  case newest =>
    rw [lastHandle?_cons, ← h.newest]
    unfold Sequence.enterOldest
    cases holdest : sequence.oldest with
    | none =>
        obtain rfl := firstHandle?_eq_none_iff.mp (h.oldest.symm.trans holdest)
        rw [h.newest]
        rfl
    | some previous =>
        obtain ⟨last, hlast⟩ := h.newest_of_oldest holdest
        simp [hlast]
  case size =>
    rw [size_enterOldest hvacant, h.size, List.length_cons]

theorem pushOldest (h : sequence.Represents row) (value : α) :
    (sequence.pushOldest value).Represents
      ((sequence.freshHandle, value) :: row) :=
  h.enterOldest sequence.links.get?_vacant value

theorem parted {front back : List (Handle × α)} {handle : Handle} {value : α}
    (h : sequence.Represents (front ++ (handle, value) :: back)) :
    handle ∉ (front ++ back).map Prod.fst ∧
      ((front ++ back).map Prod.fst).Nodup :=
  List.nodup_cons.mp ((List.perm_middle.map Prod.fst).nodup_iff.mp h.nodup)

theorem link_eq {front back : List (Handle × α)} {handle : Handle} {value : α}
    (h : sequence.Represents (front ++ (handle, value) :: back)) :
    sequence.links.get? handle =
      some ⟨value, firstHandle? back, lastHandle? front⟩ := by
  have hfront : handle ∉ front.map Prod.fst := fun hmem => h.parted.1 (by
    rw [List.map_append]
    exact List.mem_append_left _ hmem)
  rw [h.links, linkIn_append, linkIn_eq_none_iff.mpr hfront]
  simp [linkIn]

theorem remove {front back : List (Handle × α)} {handle : Handle} {value : α}
    (h : sequence.Represents (front ++ (handle, value) :: back)) :
    ∃ rest, sequence.remove? handle = some (value, rest) ∧
      rest.Represents (front ++ back) := by
  obtain ⟨habsent, hrest⟩ := h.parted
  have hlink := h.link_eq
  have hremove : sequence.remove? handle = some (value, {
      links := bypass (sequence.links.erase handle)
        ⟨value, firstHandle? back, lastHandle? front⟩
      newest := if (firstHandle? back).isSome then sequence.newest
        else lastHandle? front
      oldest := if (lastHandle? front).isSome then sequence.oldest
        else firstHandle? back }) := by
    unfold Sequence.remove?
    rw [hlink]
    rfl
  refine ⟨_, hremove, {
    nodup := hrest
    links := ?links
    oldest := ?oldest
    newest := ?newest
    size := ?size
  }⟩
  case links =>
    intro other
    rw [get?_bypass, Arena.get?_erase]
    by_cases hother : other = handle
    · subst hother
      rw [linkIn_eq_none_iff.mpr habsent]
      simp
    · rw [if_neg hother, h.links, linkIn_removed h.nodup hother]
  case oldest =>
    rw [h.oldest]
    cases front with
    | nil => rfl
    | cons entry rest =>
        cases hlast : lastHandle? (entry :: rest) with
        | none => simp at hlast
        | some last => rfl
  case newest =>
    rw [h.newest]
    cases back with
    | nil => simp [firstHandle?]
    | cons entry rest => simp [firstHandle?]
  case size =>
    have hsize := Arena.size_erase hlink
    have hlength := h.size
    rw [List.length_append, List.length_cons] at hlength
    unfold Sequence.size at hlength ⊢
    rw [size_bypass, List.length_append]
    omega

theorem remove?_eq_none (h : sequence.Represents row) {handle : Handle}
    (habsent : handle ∉ row.map Prod.fst) : sequence.remove? handle = none := by
  unfold Sequence.remove?
  rw [h.links, linkIn_eq_none_iff.mpr habsent]
  rfl

theorem oldest?_eq (h : sequence.Represents row) :
    sequence.oldest? = row.head? := by
  unfold oldest?
  rw [h.oldest]
  cases row with
  | nil => rfl
  | cons entry rest =>
      have hentry := h.get?_iff.mpr (List.mem_cons_self (a := entry))
      rw [firstHandle?, List.head?_cons, Option.map_some, Option.bind_some,
        hentry]
      rfl

theorem popOldest?_nil (h : sequence.Represents []) :
    sequence.popOldest? = none := by
  unfold popOldest?
  rw [h.oldest]
  rfl

theorem popOldest?_cons {handle : Handle} {value : α}
    (h : sequence.Represents ((handle, value) :: row)) :
    ∃ rest, sequence.popOldest? = some (handle, value, rest) ∧
      rest.Represents row := by
  have hrow : sequence.Represents ([] ++ (handle, value) :: row) := h
  obtain ⟨rest, hremove, hrest⟩ := hrow.remove
  refine ⟨rest, ?_, hrest⟩
  unfold popOldest?
  rw [h.oldest]
  simp [firstHandle?, hremove]

end Represents

end Sequence

end MessageBroker
