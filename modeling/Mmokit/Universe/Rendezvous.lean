/-
Rendezvous hashing of cells to hosts (`pkg/universe/rendezvous.go`).

Each host has a score for a cell, and the host with the highest score gets the cell.
-/
import Mathlib.Data.List.Basic
import Mathlib.Tactic.Common

namespace Mmokit.Rendezvous

open List

abbrev Name := List UInt8

variable (digest : List UInt8 → UInt64)

def hrwScore (cellID hostID : Name) : UInt64 :=
  digest (hostID ++ [0] ++ cellID)

def better (cellID : Name) (best : Name × UInt64) (h : Name) : Name × UInt64 :=
  let score := hrwScore digest cellID h
  if best.1 = [] ∨ best.2 < score then (h, score) else best

def assignCellToHost (cellID : Name) (hosts : List Name) : Name :=
  (hosts.foldl (better digest cellID) ([], 0)).1

def assignCellsAcrossHosts (cellIDs hostIDs : List Name) : List (Name × Name) :=
  cellIDs.map fun cid => (cid, assignCellToHost digest cid hostIDs)

/-- No host of the list is nameless, and no two of them have the same score for the cell. -/
structure Distinct (cellID : Name) (hosts : List Name) : Prop where
  named : ∀ h ∈ hosts, h ≠ []
  scores : ∀ h ∈ hosts, ∀ g ∈ hosts, hrwScore digest cellID h = hrwScore digest cellID g → h = g

def Wins (cellID : Name) (hosts : List Name) (h : Name) : Prop :=
  h ∈ hosts ∧ ∀ g ∈ hosts, hrwScore digest cellID g ≤ hrwScore digest cellID h

variable {digest} {cellID : Name} {hosts hosts' : List Name} {h : Name}

lemma wins_foldl (hnamed : ∀ g ∈ hosts, g ≠ []) {b : Name} (hb : b ≠ []) :
    Wins digest cellID (b :: hosts)
      (hosts.foldl (better digest cellID) (b, hrwScore digest cellID b)).1 := by
  induction hosts generalizing b with
  | nil => exact ⟨mem_singleton_self b, by simp⟩
  | cons g hosts ih =>
    have hrest := fun x hx => hnamed x (mem_cons_of_mem g hx)
    rw [foldl_cons, better]
    by_cases hlt : hrwScore digest cellID b < hrwScore digest cellID g
    · -- the next host takes over
      rw [if_pos (.inr hlt)]
      obtain ⟨hmem, hmax⟩ := ih hrest (hnamed g mem_cons_self)
      refine ⟨mem_cons_of_mem b hmem, fun x hx => ?_⟩
      rcases mem_cons.mp hx with rfl | hx
      · exact UInt64.le_trans (UInt64.le_of_lt hlt) (hmax g mem_cons_self)
      · exact hmax x hx
    · rw [if_neg (by simp [hb, hlt])]
      obtain ⟨hmem, hmax⟩ := ih hrest hb
      refine ⟨?_, fun x hx => ?_⟩
      · rcases mem_cons.mp hmem with heq | hmem
        · exact mem_cons.mpr (.inl heq)
        · exact mem_cons_of_mem b (mem_cons_of_mem g hmem)
      have hbest := hmax b mem_cons_self
      rcases mem_cons.mp hx with rfl | hx
      · exact hbest
      · rcases mem_cons.mp hx with rfl | hx
        · exact UInt64.le_trans (UInt64.not_lt.mp hlt) hbest
        · exact hmax x (mem_cons_of_mem b hx)

lemma wins_assignCellToHost (hd : Distinct digest cellID hosts) (hne : hosts ≠ []) :
    Wins digest cellID hosts (assignCellToHost digest cellID hosts) := by
  cases hosts with
  | nil => exact absurd rfl hne
  | cons b hosts =>
    unfold assignCellToHost
    rw [foldl_cons, better, if_pos (.inl rfl)]
    exact wins_foldl (fun g hg => hd.named g (mem_cons_of_mem b hg))
      (hd.named b mem_cons_self)

lemma assignCellToHost_eq_iff (hd : Distinct digest cellID hosts) (hne : hosts ≠ []) :
    assignCellToHost digest cellID hosts = h ↔ Wins digest cellID hosts h := by
  have hwins := wins_assignCellToHost hd hne
  constructor
  · rintro rfl
    exact hwins
  · intro hh
    exact hd.scores _ hwins.1 _ hh.1 (UInt64.le_antisymm (hh.2 _ hwins.1) (hwins.2 _ hh.1))

lemma Distinct.subset (hd : Distinct digest cellID hosts) (hsub : hosts' ⊆ hosts) :
    Distinct digest cellID hosts' :=
  ⟨fun h hh => hd.named h (hsub hh), fun h hh g hg => hd.scores h (hsub hh) g (hsub hg)⟩

lemma assignCellToHost_of_subset (hd : Distinct digest cellID hosts) (hsub : hosts' ⊆ hosts)
    (hmem : assignCellToHost digest cellID hosts ∈ hosts') :
    assignCellToHost digest cellID hosts' = assignCellToHost digest cellID hosts := by
  have hne : hosts ≠ [] := ne_nil_of_mem (hsub hmem)
  have hwins := wins_assignCellToHost hd hne
  rw [assignCellToHost_eq_iff (hd.subset hsub) (ne_nil_of_mem hmem)]
  exact ⟨hmem, fun g hg => hwins.2 g (hsub hg)⟩

/-- **Rendezvous assignment is stable.** It does not depend on the order of the hosts; without the
host `x` the cells of the others stay where they are; and with a new host `x` a cell stays or moves
to `x`. -/
theorem assignment_stable {cellIDs hosts : List Name}
    (hd : ∀ c ∈ cellIDs, Distinct digest c hosts) :
    (∀ hosts', hosts.Perm hosts' →
      assignCellsAcrossHosts digest cellIDs hosts' = assignCellsAcrossHosts digest cellIDs hosts) ∧
    (∀ x, ∀ c ∈ cellIDs, assignCellToHost digest c hosts ≠ x →
      assignCellToHost digest c (hosts.filter (· ≠ x)) = assignCellToHost digest c hosts) ∧
    ∀ x, (∀ c ∈ cellIDs, Distinct digest c (x :: hosts)) → ∀ hosts', hosts'.Perm (x :: hosts) →
      ∀ c ∈ cellIDs, assignCellToHost digest c hosts' = assignCellToHost digest c hosts ∨
        assignCellToHost digest c hosts' = x := by
  refine ⟨fun hosts' hperm => ?_, fun x c hc hne => ?_, fun x hx hosts' hperm c hc => ?_⟩
  · refine map_congr_left fun c hc => ?_
    cases hosts with
    | nil => rw [nil_perm.mp hperm]
    | cons b hosts =>
      have hmem := (wins_assignCellToHost (hd c hc) (cons_ne_nil b hosts)).1
      rw [assignCellToHost_of_subset (hd c hc) hperm.symm.subset (hperm.mem_iff.mp hmem)]
  · cases hosts with
    | nil => rfl
    | cons b hosts =>
      have hmem := (wins_assignCellToHost (hd c hc) (cons_ne_nil b hosts)).1
      exact assignCellToHost_of_subset (hd c hc) (filter_subset_self _)
        (mem_filter.mpr ⟨hmem, by simpa using hne⟩)
  · have hdist := (hx c hc).subset hperm.subset
    have hmem := (wins_assignCellToHost hdist
      (ne_nil_of_mem (hperm.symm.subset mem_cons_self))).1
    rcases mem_cons.mp (hperm.subset hmem) with heq | hold
    · exact .inr heq
    · have hsub := List.Subset.trans (subset_cons_self x hosts) hperm.symm.subset
      exact .inl (assignCellToHost_of_subset hdist hsub hold).symm

theorem assignment_stable_twoHosts :
    let digest : List UInt8 → UInt64 := fun l => UInt64.ofNat l.length
    assignCellsAcrossHosts digest [[99]] [[2, 2], [1]] = [([99], [2, 2])] := by
  intro digest
  have hd : ∀ c ∈ [[99]], Distinct digest c [[1], [2, 2]] := by
    intro c hc
    obtain rfl := mem_singleton.mp hc
    exact ⟨by decide, by decide⟩
  rw [(assignment_stable hd).1 _ (List.Perm.swap [2, 2] [1] [])]
  decide

end Mmokit.Rendezvous
