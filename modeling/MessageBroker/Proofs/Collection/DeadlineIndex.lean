import MessageBroker.Collection.DeadlineIndex

/-! The due entries of an index are the ones whose deadline has passed. -/

namespace MessageBroker.DeadlineIndex

variable {α : Type u} [Ranked α] {index : DeadlineIndex α} {now : Timestamp}
  {entry : Timestamp × α}

theorem nodup_entries (index : DeadlineIndex α) : index.entries.Nodup := by
  refine List.Pairwise.imp ?_ index.ordered
  rintro first second hprecedes rfl
  exact Precedes.irrefl _ hprecedes

theorem mem_takeWhile_due {list : List (Timestamp × α)}
    (hordered : list.Pairwise Precedes) :
    entry ∈ list.takeWhile (fun entry => entry.1 ≤ now) ↔
      entry ∈ list ∧ entry.1 ≤ now := by
  induction list with
  | nil => simp
  | cons head rest ih =>
      obtain ⟨hhead, hrest⟩ := List.pairwise_cons.mp hordered
      by_cases hdue : head.1 ≤ now
      · rw [List.takeWhile_cons_of_pos (by simpa using hdue), List.mem_cons,
          List.mem_cons, ih hrest]
        constructor
        · rintro (rfl | ⟨hmem, hentry⟩)
          · exact ⟨.inl rfl, hdue⟩
          · exact ⟨.inr hmem, hentry⟩
        · rintro ⟨rfl | hmem, hentry⟩
          · exact .inl rfl
          · exact .inr ⟨hmem, hentry⟩
      · rw [List.takeWhile_cons_of_neg (by simpa using hdue)]
        constructor
        · intro hmem
          cases hmem
        · rintro ⟨hmem, hentry⟩
          rcases List.mem_cons.mp hmem with rfl | hlater
          · exact absurd hentry hdue
          · have hbefore := hhead entry hlater
            unfold Precedes at hbefore
            rw [Timestamp.le_iff] at hdue hentry
            omega

theorem mem_due : entry ∈ index.due now ↔
    entry ∈ index.entries ∧ entry.1 ≤ now :=
  mem_takeWhile_due index.ordered

theorem nodup_due (index : DeadlineIndex α) (now : Timestamp) :
    (index.due now).Nodup :=
  index.nodup_entries.sublist (List.takeWhile_sublist _)

theorem mem_later : entry ∈ (index.later now).entries ↔
    entry ∈ index.entries ∧ ¬ entry.1 ≤ now := by
  have hnodup := index.nodup_entries
  rw [← index.due_append_later now] at hnodup ⊢
  have hdisjoint := (List.nodup_append.mp hnodup).2.2
  constructor
  · intro hmem
    refine ⟨List.mem_append_right _ hmem, fun hpassed => ?_⟩
    have hentry : entry ∈ index.entries := by
      rw [← index.due_append_later now]
      exact List.mem_append_right _ hmem
    exact hdisjoint entry (mem_due.mpr ⟨hentry, hpassed⟩) entry hmem rfl
  · rintro ⟨hmem, hpending⟩
    refine (List.mem_append.mp hmem).resolve_left fun hdue => ?_
    exact hpending (mem_due.mp hdue).2

end MessageBroker.DeadlineIndex
