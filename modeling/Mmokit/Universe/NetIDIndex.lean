/-
The per-stage index from network identifiers to entities (`pkg/universe/netid_index.go`).

A slot says which entity stands for a network identifier on this stage and whether it is the
authoritative copy (`live`) or a replica of an entity that lives elsewhere.
-/
import Mathlib.Tactic.Common

namespace Mmokit

abbrev NetID := UInt32

abbrev Epoch := UInt32

/-- A handle of the entity store. Handles are never reused, as the store's handles carry a
generation. -/
abbrev Entity := ℕ

inductive EntityPresence
  | none
  | live
  | replica
deriving DecidableEq

inductive TransitionAction
  | installed
  | updated
  | rejected
  | duplicate
deriving DecidableEq

structure NetIDSlot where
  entity : Entity
  presence : EntityPresence
deriving DecidableEq

structure TransitionResult where
  action : TransitionAction
  prevEntity : Option Entity := none
deriving DecidableEq

structure NetIDIndex where
  slots : NetID → Option NetIDSlot

namespace NetIDIndex

variable (idx : NetIDIndex) (netID : NetID) (entity : Entity)

def setSlot (slot : Option NetIDSlot) : NetIDIndex := ⟨Function.update idx.slots netID slot⟩

def lookup : Option NetIDSlot := idx.slots netID

def enter (pres : EntityPresence) : TransitionResult × NetIDIndex :=
  match idx.slots netID with
  | none => (⟨.installed, none⟩, idx.setSlot netID (some ⟨entity, pres⟩))
  | some cur =>
    match cur.presence with
    | .live =>
      if pres = .live then (⟨.duplicate, some cur.entity⟩, idx) else (⟨.rejected, none⟩, idx)
    | .replica =>
      if pres = .replica then (⟨.updated, none⟩, idx.setSlot netID (some ⟨entity, .replica⟩))
      else (⟨.rejected, none⟩, idx)
    | .none => (⟨.rejected, none⟩, idx)

def exitEntity : Bool × NetIDIndex :=
  match idx.slots netID with
  | none => (false, idx)
  | some cur => if cur.entity = entity then (true, idx.setSlot netID none) else (false, idx)

def demote : TransitionResult × NetIDIndex :=
  match idx.slots netID with
  | none => (⟨.rejected, none⟩, idx)
  | some cur =>
    if cur.presence = .live then
      (⟨.updated, some cur.entity⟩, idx.setSlot netID (some ⟨entity, .replica⟩))
    else (⟨.rejected, none⟩, idx)

/-! ### What the transitions do to the slots -/

variable {idx netID entity} {m : NetID} {e : Entity} {pres : EntityPresence}

@[simp] lemma setSlot_self (slot : Option NetIDSlot) :
    (idx.setSlot netID slot).slots netID = slot := Function.update_self ..

@[simp] lemma setSlot_of_ne (h : m ≠ netID) (slot : Option NetIDSlot) :
    (idx.setSlot netID slot).slots m = idx.slots m := Function.update_of_ne h ..

lemma enter_of_free (h : idx.slots netID = none) :
    idx.enter netID entity pres =
      (⟨.installed, none⟩, idx.setSlot netID (some ⟨entity, pres⟩)) := by
  simp [enter, h]

lemma enter_cases : (idx.enter netID entity pres).2 = idx ∨
    (idx.enter netID entity pres).2 = idx.setSlot netID (some ⟨entity, pres⟩) := by
  unfold enter
  split
  · exact .inr rfl
  rename_i cur hcur
  rcases cur.presence with _ | _ | _
  · exact .inl rfl
  · by_cases hp : pres = .live <;> simp [hp]
  · by_cases hp : pres = .replica
    · exact .inr (by simp [hp])
    · exact .inl (by simp [hp])

lemma exitEntity_of_ne (h : m ≠ netID) :
    (idx.exitEntity netID entity).2.slots m = idx.slots m := by
  unfold exitEntity
  split
  · rfl
  · split
    · exact setSlot_of_ne h _
    · rfl

lemma demote_of_live (h : idx.slots netID = some ⟨e, .live⟩) :
    idx.demote netID entity =
      (⟨.updated, some e⟩, idx.setSlot netID (some ⟨entity, .replica⟩)) := by
  simp [demote, h]

end NetIDIndex

end Mmokit
