/-
Members, lists of channels, subscriptions and bans after each of the updates of `Rooms`.
-/
import Mmokit.Chat.Service

namespace Mmokit.Chat.Rooms

open Function Finset

variable {r : Rooms} {now : Time} {ch ch' : ChannelID} {u v : UserID} {c c' : ConnID}
  {role : Role} {conn : Option ConnID} {ids : List UserID} {entry : BanEntry}

lemma mem_foldl_insert (members : AList fun _ : UserID => Role) :
    v ∈ ids.foldl (fun members u => members.insert u role) members ↔ v ∈ ids ∨ v ∈ members := by
  induction ids generalizing members with
  | nil => simp
  | cons u ids ih =>
    rw [List.foldl_cons, ih, AList.mem_insert, List.mem_cons]
    tauto

lemma mem_addMember : v ∈ (r.addMember ch u role conn).membership ch' ↔
    (ch' = ch ∧ v = u) ∨ v ∈ r.membership ch' := by
  unfold addMember
  dsimp only
  by_cases h : ch' = ch
  · rw [h, update_self, AList.mem_insert]
    simp
  · rw [update_of_ne h]
    simp [h]

lemma mem_dropMember : v ∈ (r.dropMember ch u conn).membership ch' ↔
    v ∈ r.membership ch' ∧ ¬ (ch' = ch ∧ v = u) := by
  unfold dropMember
  dsimp only
  by_cases h : ch' = ch
  · rw [h, update_self, AList.mem_erase]
    tauto
  · rw [update_of_ne h]
    simp [h]

lemma mem_bulkSetMembers : v ∈ (r.bulkSetMembers ch ids).membership ch' ↔
    (ch' = ch ∧ v ∈ ids) ∨ (ch' ≠ ch ∧ v ∈ r.membership ch') := by
  unfold bulkSetMembers
  dsimp only
  by_cases h : ch' = ch
  · rw [h, update_self, mem_foldl_insert]
    simp
  · rw [update_of_ne h]
    simp [h]

lemma mem_setMemberRole (hu : u ∈ r.membership ch) :
    v ∈ (r.setMemberRole ch u role).membership ch' ↔ v ∈ r.membership ch' := by
  unfold setMemberRole
  dsimp only
  by_cases h : ch' = ch
  · rw [h, update_self, AList.mem_insert]
    constructor
    · rintro (rfl | hv)
      · exact hu
      · exact hv
    · exact .inr
  · rw [update_of_ne h]

lemma mem_dropChannel : v ∈ (r.dropChannel ch).membership ch' ↔
    ch' ≠ ch ∧ v ∈ r.membership ch' := by
  unfold dropChannel
  dsimp only
  by_cases h : ch' = ch
  · rw [h, update_self]
    simp [AList.notMem_empty]
  · rw [update_of_ne h]
    simp [h]

@[simp] lemma membership_leaveSession : (r.leaveSession c).membership = r.membership := by
  unfold leaveSession
  split <;> rfl

lemma mem_userChans_addMember : ch' ∈ (r.addMember ch u role conn).userChans v ↔
    (ch' = ch ∧ v = u) ∨ ch' ∈ r.userChans v := by
  unfold addMember
  dsimp only
  by_cases h : v = u
  · rw [h, update_self, mem_insert]
    simp
  · rw [update_of_ne h]
    simp [h]

lemma mem_userChans_dropMember : ch' ∈ (r.dropMember ch u conn).userChans v ↔
    ch' ∈ r.userChans v ∧ ¬ (ch' = ch ∧ v = u) := by
  unfold dropMember
  dsimp only
  by_cases h : v = u
  · rw [h, update_self, mem_erase]
    tauto
  · rw [update_of_ne h]
    simp [h]

lemma mem_userChans_dropChannel : ch' ∈ (r.dropChannel ch).userChans v ↔
    ch' ∈ r.userChans v ∧ ¬ (ch' = ch ∧ v ∈ r.membership ch) := by
  unfold dropChannel
  dsimp only
  split
  · rename_i h
    rw [mem_erase]
    tauto
  · rename_i h
    tauto

lemma mem_userChans_bulkSetMembers : ch' ∈ (r.bulkSetMembers ch ids).userChans v ↔
    (ch' ∈ r.userChans v ∧ ¬ (ch' = ch ∧ v ∈ r.membership ch ∧ v ∉ ids)) ∨
      (ch' = ch ∧ v ∈ ids ∧ v ∉ r.membership ch) := by
  have hdeparted : v ∈ r.departed ch ids ↔ v ∈ r.membership ch ∧ v ∉ ids := by
    simp [departed, AList.mem_keys]
  have hadded : v ∈ r.added ch ids ↔ v ∈ ids ∧ v ∉ r.membership ch := by
    simp [added]
  unfold bulkSetMembers
  dsimp only
  split
  · rename_i h
    rw [mem_erase]
    tauto
  rename_i h
  split
  · rw [mem_insert]
    tauto
  · tauto

lemma mem_subs_enter : c' ∈ (r.enter u c).subs ch' ↔
    c' ∈ r.subs ch' ∨ c' = c ∧ ch' ∈ r.userChans u := by
  unfold enter
  dsimp only
  split
  · rw [mem_insert]
    tauto
  · tauto

lemma subs_leaveSession : (r.leaveSession c).subs ch' ⊆ r.subs ch' := by
  unfold leaveSession
  split
  · exact Finset.Subset.refl _
  · exact erase_subset _ _

lemma mem_subs_leaveSession_of_ne (h : c' ∈ r.subs ch) (hne : c' ≠ c) :
    c' ∈ (r.leaveSession c).subs ch := by
  unfold leaveSession
  split
  · exact h
  · exact mem_erase.mpr ⟨hne, h⟩

lemma mem_subs_addMember : c ∈ (r.addMember ch u role conn).subs ch' ↔
    c ∈ r.subs ch' ∨ ch' = ch ∧ conn = some c := by
  unfold addMember
  dsimp only
  by_cases h : ch' = ch
  · rw [h, update_self]
    cases conn with
    | none => simp
    | some c' =>
      rw [Option.elim_some, mem_insert, Option.some.injEq]
      tauto
  · rw [update_of_ne h]
    simp [h]

lemma mem_subs_dropMember : c ∈ (r.dropMember ch u conn).subs ch' ↔
    c ∈ r.subs ch' ∧ ¬ (ch' = ch ∧ conn = some c) := by
  unfold dropMember
  dsimp only
  by_cases h : ch' = ch
  · rw [h, update_self]
    cases conn with
    | none => simp
    | some c' =>
      rw [Option.elim_some, mem_erase, Option.some.injEq]
      tauto
  · rw [update_of_ne h]
    simp [h]

lemma mem_subs_bulkSetMembers : c ∈ (r.bulkSetMembers ch ids).subs ch' ↔
    (ch' ≠ ch ∧ c ∈ r.subs ch') ∨ (ch' = ch ∧ ∃ v ∈ ids, r.online.lookup v = some c) := by
  unfold bulkSetMembers
  dsimp only
  by_cases h : ch' = ch
  · rw [h, update_self, List.mem_toFinset, List.mem_filterMap]
    simp
  · rw [update_of_ne h]
    simp [h]

lemma mem_subs_ban : c ∈ (r.ban ch u entry).subs ch' ↔
    c ∈ r.subs ch' ∧ ¬ (ch' = ch ∧ r.online.lookup u = some c) := by
  unfold ban
  dsimp only
  by_cases h : ch' = ch
  · rw [h, update_self]
    cases hu : r.online.lookup u with
    | none => simp
    | some c' =>
      rw [Option.elim_some, mem_erase, Option.some.injEq]
      tauto
  · rw [update_of_ne h]
    simp [h]

lemma mem_subs_dropChannel : c ∈ (r.dropChannel ch).subs ch' ↔ ch' ≠ ch ∧ c ∈ r.subs ch' := by
  unfold dropChannel
  dsimp only
  by_cases h : ch' = ch
  · rw [h, update_self]
    simp
  · rw [update_of_ne h]
    simp [h]

instance : Decidable (r.Banned now ch u) :=
  decidable_of_iff (((r.bans (ch, u)).any fun b => now < b.bannedUntil) = true) (by
    simp only [Option.any_eq_true, decide_eq_true_eq, Banned])

lemma Banned.earlier {now' : Time} (h : r.Banned now ch u) (hle : now' ≤ now) :
    r.Banned now' ch u := by
  obtain ⟨b, hb, hlt⟩ := h
  exact ⟨b, hb, hle.trans_lt hlt⟩

lemma banned_ban : (r.ban ch u entry).Banned now ch' v ↔
    if (ch', v) = (ch, u) then now < entry.bannedUntil else r.Banned now ch' v := by
  unfold Banned ban
  dsimp only
  split
  · rename_i h
    rw [h, update_self]
    simp
  · rename_i h
    rw [update_of_ne h]

lemma banned_unban : (r.unban ch u).Banned now ch' v ↔
    r.Banned now ch' v ∧ (ch', v) ≠ (ch, u) := by
  unfold Banned unban
  dsimp only
  by_cases h : (ch', v) = (ch, u)
  · rw [h, update_self]
    simp
  · rw [update_of_ne h]
    simp [h]

lemma banned_leaveSession : (r.leaveSession c).Banned now ch u ↔ r.Banned now ch u := by
  unfold Banned leaveSession
  split <;> rfl

end Mmokit.Chat.Rooms
