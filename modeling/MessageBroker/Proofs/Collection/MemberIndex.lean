import Mathlib.Data.List.Induction
import MessageBroker.Collection.MemberIndex
import MessageBroker.Proofs.Collection.AssocList

/-! Which members stand under which keys after every change to an index. -/

namespace MessageBroker

theorem MemberSet.erase_of_not_mem {α : Type u} [DecidableEq α]
    {set : MemberSet α} {member : α} (habsent : member ∉ set.items) :
    set.erase member = set := by
  apply MemberSet.ext
  rw [MemberSet.items_erase, List.filter_eq_self]
  intro other hother
  simp only [bne_iff_ne]
  rintro rfl
  exact habsent hother

theorem MemberSet.items_eq_singleton_iff {α : Type u} {set : MemberSet α}
    {member : α} : set.items = [member] ↔
      set.items ≠ [] ∧ ∀ other ∈ set.items, other = member := by
  constructor
  · intro honly
    simp [honly]
  · rintro ⟨hsome, hall⟩
    have hcopies := List.eq_replicate_of_mem hall
    have hnodup := set.nodup_items
    rw [hcopies, List.nodup_replicate] at hnodup
    have hpositive := List.length_pos_iff.mpr hsome
    rw [hcopies, show set.items.length = 1 by omega]
    rfl

theorem MemberSet.first?_rotate {α : Type u} (set : MemberSet α) :
    set.rotate.first? = set.items.getLast? := by
  show (MemberSet.rotateItems set.items).head? = _
  unfold MemberSet.rotateItems
  cases hlast : set.items.getLast? with
  | none => rw [List.getLast?_eq_none_iff.mp hlast]; rfl
  | some last => rfl

theorem MemberSet.mem_items_ofList {α : Type u} [DecidableEq α]
    {members : List α} {member : α} :
    member ∈ (MemberSet.ofList members).items ↔ member ∈ members := by
  have hfold : ∀ set : MemberSet α,
      member ∈ (members.foldl MemberSet.insert set).items ↔
        member ∈ set.items ∨ member ∈ members := by
    induction members with
    | nil => simp
    | cons first rest ih =>
        intro set
        rw [List.foldl_cons, ih, MemberSet.mem_items_insert, List.mem_cons,
          or_assoc]
  exact (hfold .empty).trans (or_iff_right List.not_mem_nil)

namespace MemberIndex

variable {κ : Type u} {α : Type v}

theorem ext {first second : MemberIndex κ α}
    (h : first.groups = second.groups) : first = second := by
  cases first
  cases second
  cases h
  rfl

section

variable [DecidableEq κ] {index : MemberIndex κ α} {key : κ}

theorem members_eq (index : MemberIndex κ α) (key : κ) :
    index.members key = ((index.group? key).getD .empty).items := by
  unfold members
  cases index.group? key <;> rfl

theorem nodup_members (index : MemberIndex κ α) (key : κ) :
    (index.members key).Nodup := by
  rw [members_eq]
  exact MemberSet.nodup_items _

theorem members_eq_nil_iff :
    index.members key = [] ↔ index.group? key = none := by
  rw [members_eq]
  cases hgroup : index.group? key with
  | none => exact ⟨fun _ => rfl, fun _ => rfl⟩
  | some set =>
      have hnonempty := index.groups_nonempty _
        (AssocList.get?_eq_some_iff.mp hgroup)
      exact ⟨fun hnil => absurd hnil hnonempty, nofun⟩

theorem mem_toLists {members : List α} :
    (key, members) ∈ index.toLists ↔
      ∃ set, index.group? key = some set ∧ set.items = members := by
  unfold toLists group?
  rw [List.mem_map]
  constructor
  · rintro ⟨⟨other, set⟩, hentry, heq⟩
    cases heq
    exact ⟨set, AssocList.get?_eq_some_iff.mpr hentry, rfl⟩
  · rintro ⟨set, hset, rfl⟩
    exact ⟨(key, set), AssocList.get?_eq_some_iff.mp hset, rfl⟩

theorem group?_rotate (index : MemberIndex κ α) (key other : κ) :
    (index.rotate key).group? other =
      if other = key then (index.group? other).map MemberSet.rotate
      else index.group? other :=
  AssocList.get?_modify _ _ _ _

theorem members_rotate (index : MemberIndex κ α) (key other : κ) :
    (index.rotate key).members other =
      if other = key then MemberSet.rotateItems (index.members other)
      else index.members other := by
  rw [members_eq, members_eq, group?_rotate]
  split
  · cases index.group? other <;> rfl
  · rfl

theorem toLists_rotate (index : MemberIndex κ α) (key : κ) :
    (index.rotate key).toLists = index.toLists.map fun group =>
      if group.1 = key then (key, MemberSet.rotateItems group.2) else group := by
  simp only [toLists, rotate, AssocList.modify, List.map_map]
  refine List.map_congr_left fun entry _ => ?_
  dsimp only [Function.comp_apply]
  split
  · rename_i hsame
    rw [hsame]
    rfl
  · rfl

end

variable [DecidableEq κ] [DecidableEq α]
variable {index : MemberIndex κ α} {key other : κ} {member another : α}

theorem contains_iff_holds :
    index.contains key member = true ↔
      index.groups.Holds key fun set => member ∈ set.items := by
  unfold contains group? AssocList.Holds
  cases index.groups.get? key with
  | none => simp
  | some set => simp

@[simp] theorem contains_link :
    (index.link key member).contains other another = true ↔
      index.contains other another = true ∨
        (other = key ∧ another = member) := by
  rw [contains_iff_holds, contains_iff_holds]
  simp only [link, AssocList.holds_insert]
  by_cases hkey : other = key
  · subst hkey
    simp only [↓reduceIte, MemberSet.mem_items_insert, true_and]
    unfold group? AssocList.Holds
    cases index.groups.get? other with
    | none => simp [MemberSet.empty]
    | some set => simp
  · simp [hkey]

@[simp] theorem contains_unlink :
    (index.unlink key member).contains other another = true ↔
      index.contains other another = true ∧
        ¬ (other = key ∧ another = member) := by
  rw [contains_iff_holds, contains_iff_holds]
  simp only [unlink, AssocList.Holds, AssocList.get?_filter_of_mem,
    AssocList.get?_modify]
  by_cases hkey : other = key
  · subst hkey
    cases index.groups.get? other with
    | none => simp
    | some set =>
        simp only [↓reduceIte, Option.map_some, Option.some.injEq, true_and]
        constructor
        · rintro ⟨set, ⟨rfl, -⟩, hmem⟩
          rw [MemberSet.mem_items_erase] at hmem
          exact ⟨⟨_, rfl, hmem.1⟩, hmem.2⟩
        · rintro ⟨⟨_, rfl, hmem⟩, hne⟩
          have hkept := MemberSet.mem_items_erase.mpr ⟨hmem, hne⟩
          refine ⟨_, ⟨rfl, ?_⟩, hkept⟩
          simp only [MemberSet.isEmpty, Bool.not_eq_true', List.isEmpty_eq_false_iff]
          exact List.ne_nil_of_mem hkept
  · simp only [hkey, ↓reduceIte, false_and, not_false_eq_true, and_true]
    constructor
    · rintro ⟨set, ⟨hset, -⟩, hmem⟩
      exact ⟨set, hset, hmem⟩
    · rintro ⟨set, hset, hmem⟩
      refine ⟨set, ⟨hset, ?_⟩, hmem⟩
      simp only [MemberSet.isEmpty, Bool.not_eq_true', List.isEmpty_eq_false_iff]
      exact List.ne_nil_of_mem hmem

@[simp] theorem contains_eraseKey :
    (index.eraseKey key).contains other another = true ↔
      index.contains other another = true ∧ other ≠ key := by
  rw [contains_iff_holds, contains_iff_holds]
  simp only [eraseKey, AssocList.holds_erase]
  exact and_comm

@[simp] theorem contains_rotate :
    (index.rotate key).contains other another =
      index.contains other another := by
  rw [Bool.eq_iff_iff, contains_iff_holds, contains_iff_holds]
  exact AssocList.holds_modify_of_iff fun set => MemberSet.mem_items_rotate

theorem mem_pairs :
    (key, member) ∈ index.pairs ↔ index.contains key member = true := by
  rw [contains_iff_holds]
  simp only [pairs, List.mem_flatMap, List.mem_map, Prod.mk.injEq,
    AssocList.Holds, AssocList.get?_eq_some_iff]
  constructor
  · rintro ⟨⟨other, set⟩, hset, another, hmem, rfl, rfl⟩
    exact ⟨set, hset, hmem⟩
  · rintro ⟨set, hset, hmem⟩
    exact ⟨(key, set), hset, member, hmem, rfl, rfl⟩

/-- An index is empty only when it has no member at all, since no key is kept
without one. -/
theorem isEmpty_iff :
    index.isEmpty = true ↔
      ∀ key member, index.contains key member = false := by
  unfold isEmpty AssocList.isEmpty
  rw [List.isEmpty_iff]
  constructor
  · intro hnil key member
    rw [Bool.eq_false_iff]
    intro hcontains
    rw [← mem_pairs] at hcontains
    simp [pairs, hnil] at hcontains
  · intro hnone
    cases hentries : index.groups.entries with
    | nil => rfl
    | cons entry rest =>
        have hentry : entry ∈ index.groups.entries := by simp [hentries]
        obtain ⟨member, hmember⟩ :=
          List.exists_mem_of_ne_nil _ (index.groups_nonempty entry hentry)
        have hpair : (entry.1, member) ∈ index.pairs :=
          List.mem_flatMap.mpr ⟨entry, hentry, by simp [hmember]⟩
        rw [mem_pairs, hnone] at hpair
        cases hpair

theorem pairs_eq_nil_iff : index.pairs = [] ↔ index.isEmpty = true := by
  rw [isEmpty_iff, List.eq_nil_iff_forall_not_mem]
  simp only [Prod.forall, mem_pairs, Bool.not_eq_true]

theorem unlink_of_not_contains (habsent : index.contains key member = false) :
    index.unlink key member = index := by
  have hmodify : (index.groups.modify key fun set => set.erase member) =
      index.groups := by
    apply AssocList.modify_eq_self
    intro set hset
    apply MemberSet.erase_of_not_mem
    intro hmem
    rw [Bool.eq_false_iff, Ne, contains_iff_holds] at habsent
    exact habsent ⟨set, hset, hmem⟩
  apply ext
  simp only [unlink, hmodify]
  apply AssocList.ext
  simp only [AssocList.filter]
  rw [List.filter_eq_self]
  intro entry hentry
  simp only [MemberSet.isEmpty, Bool.not_eq_true', List.isEmpty_eq_false_iff]
  exact index.groups_nonempty entry hentry

theorem link_of_contains (hpresent : index.contains key member = true) :
    index.link key member = index := by
  obtain ⟨set, hset, hmem⟩ := contains_iff_holds.mp hpresent
  have hsame : set.insert member = set := dif_pos hmem
  have hkey : key ∈ index.groups.keys :=
    AssocList.mem_keys_iff.mpr ⟨set, AssocList.get?_eq_some_iff.mp hset⟩
  apply ext
  simp only [link, group?, hset, Option.getD_some, hsame, AssocList.insert]
  rw [dif_pos hkey]
  apply AssocList.modify_eq_self
  intro other hother
  exact Option.some.inj (hset.symm.trans hother)

theorem members_link (index : MemberIndex κ α) (key other : κ) (member : α) :
    (index.link key member).members other =
      if other = key then
        if member ∈ index.members key then index.members key
        else index.members key ++ [member]
      else index.members other := by
  have hgroup : (index.link key member).group? other =
      if other = key then some (((index.group? key).getD .empty).insert member)
      else index.group? other := AssocList.get?_insert _ _ _ _
  rw [members_eq, hgroup]
  split
  · rw [Option.getD_some, MemberSet.items_insert, ← members_eq]
  · rw [← members_eq]

theorem members_unlink (index : MemberIndex κ α) (key other : κ) (member : α) :
    (index.unlink key member).members other =
      if other = key then (index.members other).filter (· != member)
      else index.members other := by
  -- A set that is dropped because it is empty has no members to lose.
  have hkept : ∀ set : MemberSet α,
      (((some set).filter fun set => !set.isEmpty).getD .empty).items =
        set.items := by
    intro set
    rw [Option.filter_some]
    split
    · rfl
    · rename_i hempty
      rw [Bool.not_eq_true', Bool.not_eq_false] at hempty
      exact (List.isEmpty_iff.mp hempty).symm
  have hgroup : (index.unlink key member).group? other =
      (if other = key then (index.group? other).map fun set => set.erase member
        else index.group? other).filter fun set => !set.isEmpty := by
    simp only [group?, unlink, AssocList.get?_filter, AssocList.get?_modify]
  rw [members_eq, members_eq, hgroup]
  cases index.group? other with
  | none => split <;> rfl
  | some set =>
      split
      · exact hkept (set.erase member)
      · exact hkept set

theorem toLists_link_present (hkey : key ∈ index.toLists.map Prod.fst)
    (member : α) :
    (index.link key member).toLists = index.toLists.map fun group =>
      if group.1 = key then
        (key, if member ∈ group.2 then group.2 else group.2 ++ [member])
      else group := by
  obtain ⟨⟨key, members⟩, hgroup, rfl⟩ := List.mem_map.mp hkey
  obtain ⟨set, hset, -⟩ := mem_toLists.mp hgroup
  have hlinked : (index.link key member).groups =
      index.groups.modify key fun set => set.insert member := by
    show index.groups.insert key
      (((index.group? key).getD .empty).insert member) = _
    rw [hset, Option.getD_some]
    exact @AssocList.insert_eq_modify _ _ _ _ _ _
      (fun set => set.insert member) hset
  unfold toLists
  rw [hlinked, List.map_map]
  simp only [AssocList.modify, List.map_map]
  refine List.map_congr_left fun entry _ => ?_
  dsimp only [Function.comp_apply]
  split
  · rename_i hsame
    rw [hsame, MemberSet.items_insert]
  · rfl

theorem toLists_unlink (index : MemberIndex κ α) (key : κ) (member : α) :
    (index.unlink key member).toLists =
      (index.toLists.map fun group =>
        if group.1 = key then (key, group.2.filter (· != member))
        else group).filter fun group => !group.2.isEmpty := by
  simp only [toLists, unlink, AssocList.filter, AssocList.modify,
    List.filter_map, List.map_map]
  refine (congrArg (List.map _) (List.filter_congr ?_)).trans
    (List.map_congr_left ?_)
  · intro entry _
    dsimp only [Function.comp_apply]
    split <;> rfl
  · intro entry _
    dsimp only [Function.comp_apply]
    split
    · rename_i hsame
      rw [hsame]
      rfl
    · rfl

def linkAll (index : MemberIndex κ α) (links : List (κ × α)) :
    MemberIndex κ α :=
  links.foldl (fun index link => index.link link.1 link.2) index

theorem linkAll_append (index : MemberIndex κ α) (first second : List (κ × α)) :
    index.linkAll (first ++ second) = (index.linkAll first).linkAll second :=
  List.foldl_append

theorem eraseDups_concat (items : List α) (item : α) :
    (items ++ [item]).eraseDups =
      if item ∈ items then items.eraseDups else items.eraseDups ++ [item] := by
  rw [List.eraseDups_append]
  by_cases hmem : item ∈ items
  · simp [List.removeAll, hmem]
  · simp [List.removeAll, hmem, List.eraseDups_cons]

theorem members_linkAll_empty (links : List (κ × α)) (key : κ) :
    ((empty : MemberIndex κ α).linkAll links).members key =
      ((links.filter fun link => link.1 = key).map Prod.snd).eraseDups := by
  induction links using List.reverseRecOn with
  | nil => rfl
  | append_singleton links link ih =>
      rw [linkAll_append]
      show ((linkAll empty links).link link.1 link.2).members key = _
      rw [members_link, List.filter_append, List.map_append]
      by_cases hsame : key = link.1
      · subst hsame
        rw [if_pos rfl, List.filter_singleton]
        simp only [decide_true, cond_true, List.map_singleton]
        rw [eraseDups_concat, ih]
        simp only [List.mem_eraseDups]
      · have hother : decide (link.1 = key) = false :=
          decide_eq_false fun h => hsame h.symm
        rw [if_neg hsame, List.filter_singleton, hother, ih]
        simp

theorem toLists_link_absent (habsent : key ∉ index.toLists.map Prod.fst)
    (member : α) :
    (index.link key member).toLists = index.toLists ++ [(key, [member])] := by
  have hkey : index.groups.get? key = none := by
    rw [AssocList.get?_eq_none_iff]
    simpa [toLists, AssocList.keys, Function.comp_def] using habsent
  have hset : ((MemberSet.empty : MemberSet α).insert member).items = [member] :=
    rfl
  simp only [toLists, link, group?, hkey, Option.getD_none,
    AssocList.entries_insert_of_absent hkey, List.map_append, List.map_cons,
    List.map_nil, hset]

theorem toLists_link_last {front : List (κ × List α)} {members : List α}
    (hlast : index.toLists = front ++ [(key, members)])
    (habsent : member ∉ members) :
    (index.link key member).toLists = front ++ [(key, members ++ [member])] := by
  obtain ⟨earlier, last, hentries, hfront, hone⟩ :=
    List.map_eq_append_iff.mp hlast
  obtain ⟨⟨other, set⟩, rfl, hentry⟩ := List.map_eq_singleton_iff.mp hone
  obtain ⟨rfl, rfl⟩ := Prod.mk.inj hentry
  have hmem : (other, set) ∈ index.groups.entries := by simp [hentries]
  have hget : index.groups.get? other = some set :=
    AssocList.get?_eq_some_iff.mpr hmem
  have hkey : other ∈ index.groups.keys := AssocList.mem_keys_iff.mpr ⟨set, hmem⟩
  -- No earlier group has the key of the last one.
  have hapart : ∀ entry ∈ earlier, entry.1 ≠ other := by
    intro entry hentry heq
    have hnodup := index.groups.nodup_keys
    rw [hentries, List.map_append, List.nodup_append] at hnodup
    exact hnodup.2.2 _ (List.mem_map_of_mem hentry) other (by simp) heq
  have hitems : (set.insert member).items = set.items ++ [member] := by
    rw [MemberSet.items_insert, if_neg habsent]
  have hearlier : (earlier.map fun entry : κ × MemberSet α =>
      if entry.1 = other then (entry.1, set.insert member) else entry) =
        earlier := by
    refine (List.map_congr_left ?_).trans (List.map_id earlier)
    exact fun entry hentry => if_neg (hapart entry hentry)
  simp only [toLists, link, group?, hget, Option.getD_some, AssocList.insert]
  rw [dif_pos hkey]
  simp only [AssocList.modify, hentries, List.map_append, hearlier, List.map_cons,
    List.map_nil, if_true, hitems, hfront]

theorem toLists_linkAll_last {front : List (κ × List α)} {members : List α}
    (more : List α) (hlast : index.toLists = front ++ [(key, members)])
    (hnodup : (members ++ more).Nodup) :
    (index.linkAll (more.map fun member => (key, member))).toLists =
      front ++ [(key, members ++ more)] := by
  induction more generalizing index members with
  | nil =>
      rw [List.append_nil]
      exact hlast
  | cons member rest ih =>
      have habsent : member ∉ members := fun hmem =>
        (List.nodup_append.mp hnodup).2.2 _ hmem _ List.mem_cons_self rfl
      have hsplit : members ++ member :: rest = members ++ [member] ++ rest :=
        List.append_cons members member rest
      rw [hsplit] at hnodup ⊢
      exact ih (toLists_link_last hlast habsent) hnodup

theorem toLists_linkAll_group {members : List α}
    (habsent : key ∉ index.toLists.map Prod.fst) (hnonempty : members ≠ [])
    (hnodup : members.Nodup) :
    (index.linkAll (members.map fun member => (key, member))).toLists =
      index.toLists ++ [(key, members)] := by
  cases members with
  | nil => exact absurd rfl hnonempty
  | cons member rest =>
      exact toLists_linkAll_last rest (toLists_link_absent habsent member) hnodup

theorem toLists_linkAll {groups : List (κ × List α)}
    (hkeys : (index.toLists.map Prod.fst ++ groups.map Prod.fst).Nodup)
    (hgroups : ∀ group ∈ groups, group.2 ≠ [] ∧ group.2.Nodup) :
    (index.linkAll (groups.flatMap fun group =>
      group.2.map fun member => (group.1, member))).toLists =
        index.toLists ++ groups := by
  induction groups generalizing index with
  | nil =>
      rw [List.append_nil]
      rfl
  | cons group rest ih =>
      obtain ⟨hfirst, hrest⟩ := List.forall_mem_cons.mp hgroups
      have habsent : group.1 ∉ index.toLists.map Prod.fst := fun hmem =>
        (List.nodup_append.mp hkeys).2.2 _ hmem _ List.mem_cons_self rfl
      have hgroup := toLists_linkAll_group habsent hfirst.1 hfirst.2
      rw [List.map_cons, List.append_cons] at hkeys
      rw [List.flatMap_cons, linkAll_append, ih ?_ hrest, hgroup,
        ← List.append_cons]
      rw [hgroup, List.map_append]
      exact hkeys

end MemberIndex

end MessageBroker
