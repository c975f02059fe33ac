/-
The table of session routes (`pkg/universe/session_routes.go`).

For every client connection the coordinator knows the host and the cell that serve it, and an epoch
that tells newer routes from older ones. Every operation below is what the source does under the
table's lock.
-/
import Mathlib.Data.List.AList
import Mmokit.Universe.CellID

namespace Mmokit

open AList

structure SessionKey (G : Type*) where
  gatewayID : G
  connID : ℕ
deriving DecidableEq

structure SessionRoute (H User : Type*) where
  username : User
  hostID : H
  cellID : CellID
  epoch : ℕ
deriving DecidableEq

abbrev SessionRoutes (G H User : Type*) :=
  AList fun _ : SessionKey G => SessionRoute H User

namespace SessionRoutes

variable {G H User : Type*} [DecidableEq G]
  {routes : SessionRoutes G H User} {key k : SessionKey G}
  {r r' : SessionRoute H User} {host : H} {cell : CellID}

def set (routes : SessionRoutes G H User) (key : SessionKey G)
    (route : SessionRoute H User) : SessionRoutes G H User :=
  routes.insert key route

def remove (routes : SessionRoutes G H User) (key : SessionKey G) :
    SessionRoutes G H User :=
  routes.erase key

def removeByGateway (routes : SessionRoutes G H User) (gatewayID : G) :
    SessionRoutes G H User :=
  (routes.keys.filter (·.gatewayID = gatewayID)).foldl (fun t k => t.erase k) routes

def migrate (routes : SessionRoutes G H User) (key : SessionKey G)
    (newHost : H) (newCell : CellID) : SessionRoutes G H User × Option ℕ :=
  match routes.lookup key with
  | none => (routes, none)
  | some route =>
    let moved := { route with epoch := route.epoch + 1, hostID := newHost, cellID := newCell }
    (routes.insert key moved, some moved.epoch)

/-- `AdvanceCellFrom`: the next epoch, above `floor`, in another cell of the same host. A route that
is missing is made up. -/
def advanceCellFrom [Inhabited H] [Inhabited User]
    (routes : SessionRoutes G H User) (key : SessionKey G) (newCell : CellID)
    (floor : ℕ) : SessionRoutes G H User × ℕ :=
  match routes.lookup key with
  | some route =>
    let moved := { route with epoch := max floor route.epoch + 1, cellID := newCell }
    (routes.insert key moved, moved.epoch)
  | none => (routes.insert key ⟨default, default, newCell, floor + 1⟩, floor + 1)

/-! ### What the operations do to each route -/

@[simp] lemma lookup_set (routes : SessionRoutes G H User)
    (key : SessionKey G) (route : SessionRoute H User) :
    (routes.set key route).lookup key = some route := lookup_insert _

lemma lookup_set_of_ne (h : k ≠ key) (route : SessionRoute H User) :
    (routes.set key route).lookup k = routes.lookup k := lookup_insert_ne h

lemma lookup_remove (routes : SessionRoutes G H User) (key : SessionKey G) :
    (routes.remove key).lookup key = none := lookup_erase _ _

lemma lookup_remove_of_ne (h : k ≠ key) : (routes.remove key).lookup k = routes.lookup k :=
  lookup_erase_ne h

lemma lookup_of_remove (h : (routes.remove key).lookup k = some r) : routes.lookup k = some r := by
  by_cases hk : k = key
  · subst hk
    rw [lookup_remove] at h
    cases h
  · rwa [lookup_remove_of_ne hk] at h

lemma lookup_of_removeByGateway {gatewayID : G}
    (h : (routes.removeByGateway gatewayID).lookup k = some r) : routes.lookup k = some r := by
  unfold removeByGateway at h
  generalize routes.keys.filter (·.gatewayID = gatewayID) = gone at h
  induction gone generalizing routes with
  | nil => exact h
  | cons k' gone ih => exact lookup_of_remove (ih h)

lemma lookup_migrate_of_ne (h : k ≠ key) :
    (routes.migrate key host cell).1.lookup k = routes.lookup k := by
  unfold migrate
  split
  · rfl
  · exact lookup_insert_ne h

lemma lookup_migrate (hr : routes.lookup key = some r) :
    (routes.migrate key host cell).1.lookup key =
      some { r with epoch := r.epoch + 1, hostID := host, cellID := cell } := by
  simp only [migrate, hr, lookup_insert]

lemma migrate_of_none (hr : routes.lookup key = none) :
    (routes.migrate key host cell).1 = routes := by
  simp only [migrate, hr]

section Advance

variable [Inhabited H] [Inhabited User] {floor : ℕ}

lemma lookup_advanceCellFrom_of_ne (h : k ≠ key) :
    (routes.advanceCellFrom key cell floor).1.lookup k = routes.lookup k := by
  unfold advanceCellFrom
  split
  · exact lookup_insert_ne h
  · exact lookup_insert_ne h

lemma lookup_advanceCellFrom (hr : routes.lookup key = some r) :
    (routes.advanceCellFrom key cell floor).1.lookup key =
      some { r with epoch := max floor r.epoch + 1, cellID := cell } := by
  simp only [advanceCellFrom, hr, lookup_insert]

lemma cellID_advanceCellFrom
    (h : (routes.advanceCellFrom key cell floor).1.lookup key = some r) : r.cellID = cell := by
  unfold advanceCellFrom at h
  split at h
  · rw [lookup_insert] at h
    cases h
    rfl
  · rw [lookup_insert] at h
    cases h
    rfl

end Advance

/-- A route that changed its host or its cell has a higher epoch than before. -/
def Advanced (r r' : SessionRoute H User) : Prop :=
  r'.hostID ≠ r.hostID ∨ r'.cellID ≠ r.cellID → r.epoch < r'.epoch

instance [DecidableEq H] (r r' : SessionRoute H User) : Decidable (Advanced r r') :=
  inferInstanceAs (Decidable (_ ∨ _ → _))

lemma advanced_refl (r : SessionRoute H User) : Advanced r r := by
  rintro (h | h)
  · exact absurd rfl h
  · exact absurd rfl h

end SessionRoutes

end Mmokit
