/-
Adjacency maps: from each vertex of a finite graph to the list of its neighbours.

A map represents a relation `adj` on a set `vs` of vertices if its keys are `vs` and each row lists
the vertices of `vs` next to its key.
-/
import Mathlib.Data.List.AList
import Mathlib.Data.Finset.Basic

abbrev AdjacencyMap (V : Type*) := AList fun _ : V => List V

namespace AdjacencyMap

open List AList

variable {V : Type*} [DecidableEq V] {adj : V → V → Prop} {vs : Set V} {t t' : AdjacencyMap V}
  {v w : V}

def row (t : AdjacencyMap V) (v : V) : List V := (t.lookup v).getD []

lemma row_of_notMem (h : v ∉ t) : t.row v = [] := by
  rw [row, lookup_eq_none.mpr h, Option.getD_none]

@[simp] lemma row_insert_self (l : List V) : row (t.insert v l) v = l := by
  simp [row]

lemma row_insert_of_ne (h : w ≠ v) (l : List V) : row (t.insert v l) w = t.row w := by
  rw [row, lookup_insert_ne h, row]

@[simp] lemma row_erase_self : row (t.erase v) v = [] := by
  simp [row]

lemma row_erase_of_ne (h : w ≠ v) : row (t.erase v) w = t.row w := by
  rw [row, lookup_erase_ne h, row]

/-- **A loop over rows.** Each round keeps the part `p` of a row and adds `q`; a vertex that
comes up again is none the worse. -/
lemma foldl_amend {f : V → List V → List V} {p q : V → V → Prop}
    (hf : ∀ v l w, w ∈ f v l ↔ (w ∈ l ∧ p v w) ∨ q v w) (vs : List V) (t : AdjacencyMap V) :
    let t' := vs.foldl (fun t v => t.insert v (f v (t.row v))) t
    (∀ v, v ∈ t' ↔ v ∈ t ∨ v ∈ vs) ∧
      (∀ v, v ∉ vs → t'.row v = t.row v) ∧
      ∀ v ∈ vs, ∀ w, w ∈ t'.row v ↔ (w ∈ t.row v ∧ p v w) ∨ q v w := by
  induction vs generalizing t with
  | nil => simp
  | cons u vs ih =>
    obtain ⟨hkeys, hrest, hrows⟩ := ih (t.insert u (f u (t.row u)))
    refine ⟨?_, ?_, ?_⟩
    · intro v
      rw [foldl_cons, hkeys, mem_insert, mem_cons]
      tauto
    · intro v hv
      rw [mem_cons, not_or] at hv
      rw [foldl_cons, hrest v hv.2, row_insert_of_ne hv.1]
    intro v hv w
    rw [foldl_cons]
    by_cases hvs : v ∈ vs
    · rw [hrows v hvs]
      by_cases hvu : v = u
      · -- the second time around nothing changes
        subst hvu
        rw [row_insert_self, hf]
        tauto
      · rw [row_insert_of_ne hvu]
    · obtain rfl : v = u := (mem_cons.mp hv).resolve_right hvs
      rw [hrest v hvs, row_insert_self, hf]

/-! ### Representing a relation -/

/-- The map of the graph of `adj` on `vs`. -/
structure Represents (adj : V → V → Prop) (vs : Set V) (t : AdjacencyMap V) : Prop where
  mem_iff : ∀ v, v ∈ t ↔ v ∈ vs
  row_iff : ∀ v w, w ∈ t.row v ↔ v ∈ vs ∧ w ∈ vs ∧ adj v w

/-- The maps have the same keys, and the same rows as sets. -/
def SameRows (t t' : AdjacencyMap V) : Prop :=
  ∀ v, (t.lookup v).map toFinset = (t'.lookup v).map toFinset

lemma SameRows.of_rows (hkeys : ∀ v, v ∈ t ↔ v ∈ t') (hrows : ∀ v w, w ∈ t.row v ↔ w ∈ t'.row v) :
    SameRows t t' := by
  intro v
  cases ht : t.lookup v with
  | none =>
    have hv : v ∉ t' := fun h => lookup_eq_none.mp ht ((hkeys v).mpr h)
    rw [lookup_eq_none.mpr hv]
  | some l =>
    have hv : v ∈ t' := (hkeys v).mp (lookup_isSome.mp (by simp [ht]))
    obtain ⟨l', ht'⟩ := Option.isSome_iff_exists.mp (lookup_isSome.mpr hv)
    rw [ht', Option.map_some]
    congr 1
    ext w
    simpa [row, ht, ht'] using hrows v w

lemma Represents.sameRows (h : Represents adj vs t) (h' : Represents adj vs t') :
    SameRows t t' :=
  .of_rows (fun v => (h.mem_iff v).trans (h'.mem_iff v).symm)
    fun v w => (h.row_iff v w).trans (h'.row_iff v w).symm

lemma Represents.of_sameRows (h : Represents adj vs t) (hsame : SameRows t' t) :
    Represents adj vs t' := by
  have hkeys : ∀ v, v ∈ t' ↔ v ∈ t := by
    intro v
    rw [← lookup_isSome, ← lookup_isSome,
      ← Option.isSome_map (f := toFinset), hsame v, Option.isSome_map]
  have hrows : ∀ v w, w ∈ t'.row v ↔ w ∈ t.row v := by
    intro v w
    have hv := hsame v
    unfold row
    cases ht : t.lookup v <;> cases ht' : t'.lookup v
    · rfl
    · simp [ht, ht'] at hv
    · simp [ht, ht'] at hv
    · rename_i l l'
      have : l'.toFinset = l.toFinset := by simpa [ht, ht'] using hv
      simpa using congrArg (w ∈ ·) this
  exact ⟨fun v => (hkeys v).trans (h.mem_iff v), fun v w => (hrows v w).trans (h.row_iff v w)⟩

/-! ### Replacing vertices -/

def Border (t : AdjacencyMap V) (old : Set V) (w : V) : Prop :=
  w ∉ old ∧ ∃ r ∈ old, w ∈ t.row r

/-- In `t'` the vertices `new` have taken the place of `old`; besides their own rows only those of
the border were written. -/
structure Replaced (adj : V → V → Prop) (old new : Set V) (t t' : AdjacencyMap V) : Prop where
  mem_iff : ∀ v, v ∈ t' ↔ (v ∈ t ∧ v ∉ old) ∨ v ∈ new
  new_row : ∀ v ∈ new, ∀ w, w ∈ t'.row v ↔ (w ∈ new ∨ t.Border old w) ∧ adj v w
  border_row : ∀ v, v ∉ new → t.Border old v → ∀ w,
    w ∈ t'.row v ↔ (w ∈ t.row v ∧ w ∉ old) ∨ (w ∈ new ∧ adj v w)
  rest_row : ∀ v, v ∉ new → v ∉ old → ¬ t.Border old v → t'.row v = t.row v

/-- **Replacing vertices keeps the representation**, if what is next to a new vertex was next to
one of the old ones. -/
theorem Represents.replace {old new : Set V} (h : Represents adj vs t)
    (hsymm : ∀ {v w}, adj v w → adj w v) (hold : old ⊆ vs)
    (hlocal : ∀ v ∈ vs, v ∉ old → ∀ w ∈ new, adj v w → ∃ r ∈ old, adj v r)
    (hrep : Replaced adj old new t t') : Represents adj (vs \ old ∪ new) t' := by
  have hborder : ∀ {w}, t.Border old w ↔ (w ∈ vs ∧ w ∉ old) ∧ ∃ r ∈ old, adj w r := by
    intro w
    constructor
    · rintro ⟨hw, r, hr, hwr⟩
      obtain ⟨-, hwvs, hadj⟩ := (h.row_iff r w).mp hwr
      exact ⟨⟨hwvs, hw⟩, r, hr, hsymm hadj⟩
    · rintro ⟨⟨hwvs, hw⟩, r, hr, hadj⟩
      exact ⟨hw, r, hr, (h.row_iff r w).mpr ⟨hold hr, hwvs, hsymm hadj⟩⟩
  refine ⟨fun v => ?_, fun v w => ?_⟩
  · rw [hrep.mem_iff, h.mem_iff]
    rfl
  by_cases hv : v ∈ new
  · -- a new vertex: all its neighbours are new or on the border
    rw [hrep.new_row v hv]
    constructor
    · rintro ⟨hw | hw, hadj⟩
      · exact ⟨.inr hv, .inr hw, hadj⟩
      · exact ⟨.inr hv, .inl (hborder.mp hw).1, hadj⟩
    · rintro ⟨-, hw | hw, hadj⟩
      · exact ⟨.inr (hborder.mpr ⟨hw, hlocal w hw.1 hw.2 v hv (hsymm hadj)⟩), hadj⟩
      · exact ⟨.inl hw, hadj⟩
  by_cases hb : t.Border old v
  · -- on the border old neighbours go and new ones come
    have hvs := (hborder.mp hb).1
    rw [hrep.border_row v hv hb, h.row_iff]
    constructor
    · rintro (⟨⟨-, hw, hadj⟩, hwold⟩ | ⟨hw, hadj⟩)
      · exact ⟨.inl hvs, .inl ⟨hw, hwold⟩, hadj⟩
      · exact ⟨.inl hvs, .inr hw, hadj⟩
    · rintro ⟨-, hw | hw, hadj⟩
      · exact .inl ⟨⟨hvs.1, hw.1, hadj⟩, hw.2⟩
      · exact .inr ⟨hw, hadj⟩
  · by_cases hvold : v ∈ old
    · -- an old vertex has no row any more
      have hout : v ∉ t' := by
        rw [hrep.mem_iff]
        tauto
      rw [row_of_notMem hout]
      simp [hvold, hv]
    · -- away from the border nothing changes
      rw [hrep.rest_row v hv hvold hb, h.row_iff]
      constructor
      · rintro ⟨hvs, hw, hadj⟩
        refine ⟨.inl ⟨hvs, hvold⟩, .inl ⟨hw, fun hwold => ?_⟩, hadj⟩
        exact hb (hborder.mpr ⟨⟨hvs, hvold⟩, w, hwold, hadj⟩)
      rintro ⟨hvs | hvs, hw | hw, hadj⟩
      · exact ⟨hvs.1, hw.1, hadj⟩
      · exact absurd (hborder.mpr ⟨hvs, hlocal v hvs.1 hvs.2 w hw hadj⟩) hb
      · exact absurd hvs hv
      · exact absurd hvs hv

end AdjacencyMap
