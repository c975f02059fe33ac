/-
The resting orders of a service.

Everything a call does to the books it does to one book: the orders of the service are, up to their
order, those of that book and the others (`Service.orders_perm`), and `setBook` exchanges the
former (`Service.orders_setBook`).
-/
import Mathlib.Data.Finset.Basic
import Mathlib.Data.List.Flatten
import Mmokit.Orderbook.Matching

namespace Mmokit.Orderbook

open List

variable {P : Type*}

namespace OrderBook

lemma insertBefore_perm (later : Order P → Bool) (o : Order P) (os : List (Order P)) :
    (insertBefore later o os).Perm (o :: os) := by
  induction os with
  | nil => exact List.Perm.refl _
  | cons x xs ih =>
    rw [insertBefore]
    split
    · exact List.Perm.refl _
    · exact (ih.cons x).trans (List.Perm.swap o x xs)

lemma insertSell_orders (ob : OrderBook P) (o : Order P) :
    (ob.insertSell o).orders.Perm (o :: ob.orders) := by
  exact (insertBefore_perm _ o ob.sells).append_right ob.buys

lemma insertBuy_orders (ob : OrderBook P) (o : Order P) :
    (ob.insertBuy o).orders.Perm (o :: ob.orders) := by
  exact ((insertBefore_perm _ o ob.buys).append_left ob.sells).trans perm_middle

variable {o : Order P}

lemma perm_eraseP_id {os : List (Order P)} (hids : (os.map (·.id)).Nodup) (ho : o ∈ os) :
    os.Perm (o :: os.eraseP (·.id = o.id)) := by
  obtain ⟨a, l₁, l₂, -, ha, rfl, herase⟩ :=
    exists_of_eraseP (p := fun x : Order P => decide (x.id = o.id)) ho (by simp)
  have heq : a = o :=
    inj_on_of_nodup_map hids (by simp) ho (by simpa using ha)
  subst heq
  rw [herase]
  exact perm_middle

lemma removeOrder_orders {ob : OrderBook P} (hids : (ob.orders.map (·.id)).Nodup)
    (ho : o ∈ ob.orders) : ob.orders.Perm (o :: (ob.removeOrder o.id).orders) := by
  rw [orders, map_append] at hids
  unfold removeOrder
  split
  · next hany =>
    -- the id is found among the sells, so the order itself is one of them
    obtain ⟨x, hx, hxid⟩ := any_eq_true.mp hany
    have hxo : x = o := by
      refine inj_on_of_nodup_map (f := fun x : Order P => x.id) (l := ob.sells ++ ob.buys)
        (by rwa [map_append]) (mem_append_left _ hx) ho ?_
      simpa using hxid
    exact (perm_eraseP_id hids.of_append_left (hxo ▸ hx)).append_right ob.buys
  · next hnone =>
    have hbuy : o ∈ ob.buys := by
      rcases mem_append.mp ho with h | h
      · exact absurd (any_eq_true.mpr ⟨o, h, by simp⟩) hnone
      · exact h
    exact ((perm_eraseP_id hids.of_append_right hbuy).append_left ob.sells).trans perm_middle

lemma removeOrder_sells (ob : OrderBook P) (orderID : ℕ) :
    (ob.removeOrder orderID).sells.Sublist ob.sells := by
  unfold removeOrder
  split
  · exact eraseP_sublist
  · exact List.Sublist.refl _

lemma removeOrder_buys (ob : OrderBook P) (orderID : ℕ) :
    (ob.removeOrder orderID).buys.Sublist ob.buys := by
  unfold removeOrder
  split
  · exact List.Sublist.refl _
  · exact eraseP_sublist

end OrderBook

namespace Service

def others (s : Service P) (k : BookKey) : List (Order P) :=
  (s.keys.erase k).flatMap fun k => (s.book k).orders

lemma orders_perm (s : Service P) (k : BookKey) :
    s.orders.Perm ((s.book k).orders ++ s.others k) := by
  by_cases hk : k ∈ s.keys
  · exact (perm_cons_erase hk).flatMap_right _
  · rw [s.absent k hk, others, erase_of_not_mem hk]
    exact List.Perm.refl _

lemma orders_setBook (s : Service P) (k : BookKey) (ob : OrderBook P) :
    (s.setBook k ob).orders.Perm (ob.orders ++ s.others k) := by
  have hbook : ((s.setBook k ob).book k).orders = ob.orders := by
    simp only [setBook, Function.update_self]
  have hkeys : (s.setBook k ob).keys.erase k = s.keys.erase k := by
    simp only [setBook]
    split
    · rfl
    · next hk => rw [erase_cons_head, erase_of_not_mem hk]
  have hothers : (s.setBook k ob).others k = s.others k := by
    unfold others
    rw [hkeys]
    refine flatMap_congr fun k' hk' => ?_
    have hne : k' ≠ k := fun h => s.nodup.not_mem_erase (h ▸ hk')
    simp only [setBook, Function.update_of_ne hne]
  have hperm := (s.setBook k ob).orders_perm k
  rwa [hbook, hothers] at hperm

lemma mem_orders {s : Service P} {o : Order P} : o ∈ s.orders ↔ ∃ k, o ∈ (s.book k).orders := by
  rw [orders, mem_flatMap]
  refine ⟨fun ⟨k, _, h⟩ => ⟨k, h⟩, fun ⟨k, h⟩ => ⟨k, ?_, h⟩⟩
  by_contra hk
  rw [s.absent k hk] at h
  cases h

def total (s : Service P) (w : Order P → ℤ) : ℤ := (s.orders.map w).sum

lemma total_setBook (s : Service P) (k : BookKey) (ob : OrderBook P) (w : Order P → ℤ) :
    (s.setBook k ob).total w + ((s.book k).orders.map w).sum =
      s.total w + (ob.orders.map w).sum := by
  have hold := ((s.orders_perm k).map w).sum_eq
  have hnew := ((s.orders_setBook k ob).map w).sum_eq
  rw [map_append, sum_append] at hold hnew
  unfold total
  linarith

end Service

/-! ### Well-formed books -/

/-- An order that may stand on this side. -/
structure Order.Standing (players : Finset P) (k : BookKey) (side : OrderSide)
    (o : Order P) : Prop where
  key : o.key = k
  side : o.side = side
  price : 0 ≤ o.price.toInt
  quantity : 0 < o.quantity.toInt
  owner : o.owner ∈ players

variable {players : Finset P} {k : BookKey} {side : OrderSide}

lemma Order.Standing.withQuantity {o : Order P} (h : o.Standing players k side) {q : Int32}
    (hq : 0 < q.toInt) :
    (o.withQuantity q).Standing players k side :=
  ⟨h.key, h.side, h.price, hq, h.owner⟩

structure OrderBook.WF (players : Finset P) (k : BookKey) (ob : OrderBook P) : Prop where
  sells : ∀ o ∈ ob.sells, o.Standing players k .sell
  buys : ∀ o ∈ ob.buys, o.Standing players k .buy

lemma Filled.Spec.standing {os : List (Order P)} {qty : Int32} {r : Filled P} (h : r.Spec os qty)
    (hos : ∀ o ∈ os, o.Standing players k side) : ∀ o ∈ r.left, o.Standing players k side := by
  intro o ho
  rcases h.left o ho with hmem | ⟨o', ho', q, hq, rfl⟩
  · exact hos o hmem
  · exact (hos o' ho').withQuantity hq

namespace OrderBook

variable {players : Finset P} {k : BookKey} {ob : OrderBook P} {o : Order P}

lemma WF.insertSell (h : ob.WF players k) (ho : o.Standing players k .sell) :
    (ob.insertSell o).WF players k := by
  refine ⟨fun x hx => ?_, h.buys⟩
  rcases mem_cons.mp ((insertBefore_perm _ o ob.sells).mem_iff.mp hx) with rfl | hx
  · exact ho
  · exact h.sells x hx

lemma WF.insertBuy (h : ob.WF players k) (ho : o.Standing players k .buy) :
    (ob.insertBuy o).WF players k := by
  refine ⟨h.sells, fun x hx => ?_⟩
  rcases mem_cons.mp ((insertBefore_perm _ o ob.buys).mem_iff.mp hx) with rfl | hx
  · exact ho
  · exact h.buys x hx

lemma WF.removeOrder (h : ob.WF players k) (orderID : ℕ) : (ob.removeOrder orderID).WF players k :=
  ⟨fun o ho => h.sells o ((ob.removeOrder_sells orderID).subset ho),
    fun o ho => h.buys o ((ob.removeOrder_buys orderID).subset ho)⟩

end OrderBook

/-- The books of a service are well formed, and no two orders share an id. -/
structure Service.WF (players : Finset P) (s : Service P) : Prop where
  books : ∀ k, (s.book k).WF players k
  ids : (s.orders.map (·.id)).Nodup
  fresh : ∀ o ∈ s.orders, o.id < s.nextID

namespace Service.WF

variable {players : Finset P} {s : Service P}

lemma new : (Service.new : Service P).WF players where
  books _ := ⟨fun _ ho => absurd ho not_mem_nil, fun _ ho => absurd ho not_mem_nil⟩
  ids := nodup_nil
  fresh _ ho := absurd ho not_mem_nil

variable {o : Order P}

lemma standing (h : s.WF players) (ho : o ∈ s.orders) :
    o ∈ (s.book o.key).orders ∧ o.Standing players o.key o.side := by
  obtain ⟨k, hk⟩ := mem_orders.mp ho
  rcases mem_append.mp hk with hsell | hbuy
  · have hstand := (h.books k).sells o hsell
    obtain rfl := hstand.key
    exact ⟨hk, hstand.side ▸ hstand⟩
  · have hstand := (h.books k).buys o hbuy
    obtain rfl := hstand.key
    exact ⟨hk, hstand.side ▸ hstand⟩

lemma setBook (h : s.WF players) {k : BookKey} {ob : OrderBook P} {news kept : List ℕ} {n : ℕ}
    (hob : ob.WF players k) (hids : (ob.orders.map (·.id)).Perm (news ++ kept))
    (hkept : kept.Sublist ((s.book k).orders.map (·.id))) (hnodup : news.Nodup)
    (hnews : ∀ i ∈ news, s.nextID ≤ i ∧ i < n) (hn : s.nextID ≤ n) :
    { s.setBook k ob with nextID := n : Service P }.WF players := by
  have hold := (s.orders_perm k).map (·.id)
  have hnew := (s.orders_setBook k ob).map (·.id)
  rw [map_append] at hold hnew
  -- the ids of the exchanged book and the others: the new ones, and some of the old ones
  have hold_nodup := hold.nodup_iff.mp h.ids
  have hsub : (kept ++ (s.others k).map (·.id)).Sublist
      ((s.book k).orders.map (·.id) ++ (s.others k).map (·.id)) := hkept.append_right _
  have hperm : (((s.setBook k ob).orders).map (·.id)).Perm
      (news ++ (kept ++ (s.others k).map (·.id))) := by
    rw [← append_assoc]
    exact hnew.trans (hids.append_right _)
  have hlt : ∀ i ∈ kept ++ (s.others k).map (·.id), i < s.nextID := by
    intro i hi
    obtain ⟨o, ho, rfl⟩ := mem_map.mp (hold.symm.mem_iff.mp (hsub.subset hi))
    exact h.fresh o ho
  refine ⟨fun k' => ?_, ?_, ?_⟩
  · by_cases hk : k' = k
    · subst hk
      simpa only [Service.setBook, Function.update_self] using hob
    · simpa only [Service.setBook, Function.update_of_ne hk] using h.books k'
  · refine hperm.nodup_iff.mpr (nodup_append.mpr ⟨hnodup, hsub.nodup hold_nodup, ?_⟩)
    intro i hi j hj hij
    have hge := (hnews i hi).1
    have hj' := hlt j hj
    omega
  · intro o ho
    have hmem : o.id ∈ news ++ (kept ++ (s.others k).map (·.id)) :=
      hperm.mem_iff.mp (mem_map_of_mem ho)
    rcases mem_append.mp hmem with hi | hi
    · exact (hnews _ hi).2
    · exact (hlt _ hi).trans_le hn

lemma removeOrder (h : s.WF players) (ho : o ∈ s.orders) :
    (s.removeOrder o).WF players ∧ s.orders.Perm (o :: (s.removeOrder o).orders) := by
  obtain ⟨hbook, -⟩ := h.standing ho
  have hkey : o.key ∈ s.keys := by
    by_contra hk
    rw [s.absent _ hk] at hbook
    cases hbook
  have hold := s.orders_perm o.key
  have hbookids : ((s.book o.key).orders.map (·.id)).Nodup := by
    have hids := (hold.map (·.id)).nodup_iff.mp h.ids
    rw [map_append] at hids
    exact hids.of_append_left
  have hremove := OrderBook.removeOrder_orders hbookids hbook
  unfold Service.removeOrder
  rw [if_pos hkey]
  refine ⟨?_, ?_⟩
  · have hsub : (((s.book o.key).removeOrder o.id).orders.map (·.id)).Sublist
        ((s.book o.key).orders.map (·.id)) :=
      List.Sublist.map _ ((OrderBook.removeOrder_sells _ _).append (OrderBook.removeOrder_buys _ _))
    exact h.setBook ((h.books o.key).removeOrder o.id) (List.Perm.refl ([] ++ _)) hsub
      nodup_nil (fun i hi => absurd hi not_mem_nil) le_rfl
  · have hnew := s.orders_setBook o.key ((s.book o.key).removeOrder o.id)
    exact hold.trans ((hremove.append_right _).trans (hnew.symm.cons o))

lemma removeOrders (h : s.WF players) {os rest : List (Order P)}
    (hos : s.orders.Perm (os ++ rest)) :
    (os.foldl Service.removeOrder s).WF players ∧
      s.orders.Perm (os ++ (os.foldl Service.removeOrder s).orders) := by
  induction os generalizing s with
  | nil => exact ⟨h, List.Perm.refl _⟩
  | cons o os ih =>
    obtain ⟨hwf, hperm⟩ := h.removeOrder (hos.mem_iff.mpr mem_cons_self)
    obtain ⟨hwf', hperm'⟩ := ih hwf (hperm.symm.trans hos).cons_inv
    exact ⟨hwf', hperm.trans (hperm'.cons o)⟩

end Service.WF

end Mmokit.Orderbook
