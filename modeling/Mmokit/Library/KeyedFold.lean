/-
Folding operations that each touch one key.

A state is observed key by key, and an operation `f s x` changes the observation at the key of `x`
only, in a way that depends on the old observation there. Then a fold over operations with
different keys changes each key at most once.
-/
import Mathlib.Data.List.Nodup

lemma foldl_keeps {σ α β : Type*} {f : σ → α → σ} (g : σ → β) (h : ∀ s x, g (f s x) = g s)
    (xs : List α) (s : σ) : g (xs.foldl f s) = g s := by
  induction xs generalizing s with
  | nil => rfl
  | cons x xs ih => rw [List.foldl_cons, ih, h]

/-- The operation `f` changes the observation `get` at the key of its argument, by `g`. -/
structure Keyed {σ α κ β : Type*} (f : σ → α → σ) (key : α → κ) (get : σ → κ → β)
    (g : α → β → β) : Prop where
  frame : ∀ {s : σ} {x : α} {k : κ}, k ≠ key x → get (f s x) k = get s k
  effect : ∀ {s : σ} {x : α}, get (f s x) (key x) = g x (get s (key x))

namespace Keyed

open List

variable {σ α κ β : Type*} {f : σ → α → σ} {key : α → κ} {get : σ → κ → β} {g : α → β → β}

lemma foldl_of_notMem (h : Keyed f key get g) {xs : List α} {s : σ} {k : κ}
    (hk : k ∉ xs.map key) : get (xs.foldl f s) k = get s k := by
  induction xs generalizing s with
  | nil => rfl
  | cons x xs ih =>
    rw [map_cons, mem_cons, not_or] at hk
    rw [foldl_cons, ih hk.2, h.frame hk.1]

lemma foldl_of_mem (h : Keyed f key get g) {xs : List α} {s : σ} (hnodup : (xs.map key).Nodup)
    {x : α} (hx : x ∈ xs) : get (xs.foldl f s) (key x) = g x (get s (key x)) := by
  induction xs generalizing s with
  | nil => exact absurd hx not_mem_nil
  | cons y xs ih =>
    rw [map_cons, nodup_cons] at hnodup
    rw [foldl_cons]
    rcases mem_cons.mp hx with rfl | hx
    · rw [h.foldl_of_notMem hnodup.1, h.effect]
    · have hne : key x ≠ key y := fun heq =>
        hnodup.1 (heq ▸ mem_map_of_mem hx)
      rw [ih hnodup.2 hx, h.frame hne]

lemma foldl_congr (h : Keyed f key get g) {xs : List α} {s t : σ} (hst : ∀ k, get s k = get t k)
    (k : κ) : get (xs.foldl f s) k = get (xs.foldl f t) k := by
  induction xs generalizing s t with
  | nil => exact hst k
  | cons x xs ih =>
    refine ih fun k' => ?_
    by_cases hk : k' = key x
    · subst hk
      rw [h.effect, h.effect, hst]
    · rw [h.frame hk, h.frame hk, hst]

section FilterMap

variable {ι : Type*} {op : ι → Option α} {itemKey : ι → κ}

lemma sublist_filterMap {items : List ι} (hkey : ∀ i ∈ items, ∀ x, op i = some x →
    key x = itemKey i) : ((items.filterMap op).map key).Sublist (items.map itemKey) := by
  induction items with
  | nil => exact List.Sublist.refl _
  | cons i items ih =>
    have hrest := ih fun j hj => hkey j (mem_cons_of_mem _ hj)
    cases hop : op i with
    | none =>
      rw [filterMap_cons_none hop, map_cons]
      exact hrest.cons _
    | some x =>
      rw [filterMap_cons_some hop, map_cons, map_cons,
        hkey i mem_cons_self x hop]
      exact hrest.cons_cons _

lemma foldl_filterMap (h : Keyed f key get g) {items : List ι} {s : σ}
    (hkey : ∀ i ∈ items, ∀ x, op i = some x → key x = itemKey i)
    (hnodup : (items.map itemKey).Nodup) {i : ι} (hi : i ∈ items) :
    get ((items.filterMap op).foldl f s) (itemKey i) =
      match op i with
      | some x => g x (get s (itemKey i))
      | none => get s (itemKey i) := by
  have hops := (sublist_filterMap hkey).nodup hnodup
  cases hop : op i with
  | some x =>
    have hx : x ∈ items.filterMap op := mem_filterMap.mpr ⟨i, hi, hop⟩
    rw [← hkey i hi x hop]
    exact h.foldl_of_mem hops hx
  | none =>
    refine h.foldl_of_notMem fun hmem => ?_
    obtain ⟨x, hx, hxkey⟩ := mem_map.mp hmem
    obtain ⟨j, hj, hjx⟩ := mem_filterMap.mp hx
    have hij : itemKey j = itemKey i := (hkey j hj x hjx).symm.trans hxkey
    rw [inj_on_of_nodup_map hnodup hj hi hij] at hjx
    exact absurd (hop.symm.trans hjx) (by simp)

lemma foldl_filterMap_of_notMem (h : Keyed f key get g) {items : List ι} {s : σ} {k : κ}
    (hkey : ∀ i ∈ items, ∀ x, op i = some x → key x = itemKey i) (hk : k ∉ items.map itemKey) :
    get ((items.filterMap op).foldl f s) k = get s k :=
  h.foldl_of_notMem fun hmem => hk ((sublist_filterMap hkey).subset hmem)

end FilterMap

end Keyed
