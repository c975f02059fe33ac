/-
A receiver that suppresses duplicates of numbered messages and may forget what it has seen.

The receiver keeps one mark per sender: the number it accepted last. A message is a repeat if its
number is not serially after the mark.
-/
import Mmokit.Library.Serial

open Serial

/-- The mark of a receiver together with the history that it stands for, newest first. -/
@[ext]
structure Ledger where
  /-- The number kept for recognising repeats. -/
  mark : Option UInt32
  /-- The numbers accepted since the mark was last forgotten. -/
  since : List UInt32
  /-- All numbers accepted so far. -/
  accepted : List UInt32

namespace Ledger

variable {b e m x : UInt32} {l : Ledger}

def empty : Ledger := ⟨none, [], []⟩

def Knows (l : Ledger) (e : UInt32) : Prop := ∃ m, l.mark = some m ∧ ¬ After e m

def accept (l : Ledger) (e : UInt32) : Ledger := ⟨some e, e :: l.since, e :: l.accepted⟩

def forget (l : Ledger) : Ledger := ⟨none, [], l.accepted⟩

@[simp] lemma empty_accepted : empty.accepted = [] := rfl
@[simp] lemma accept_mark : (l.accept e).mark = some e := rfl
@[simp] lemma accept_accepted : (l.accept e).accepted = e :: l.accepted := rfl
@[simp] lemma forget_mark : l.forget.mark = none := rfl
@[simp] lemma forget_accepted : l.forget.accepted = l.accepted := rfl

/-- The mark is the last number accepted since the last forgetting. -/
structure Sound (l : Ledger) : Prop where
  mark_eq : l.mark = l.since.head?
  since_sublist : l.since.Sublist l.accepted

/-- Every number was newer than all the numbers accepted before it. -/
def Ordered (l : Ledger) : Prop := l.accepted.Pairwise After

def Within (b : UInt32) (l : Ledger) : Prop := ∀ x ∈ l.accepted, InWindow b x

lemma sound_empty : empty.Sound := ⟨rfl, List.Sublist.refl _⟩

lemma ordered_empty : empty.Ordered := List.Pairwise.nil

lemma Sound.accept (h : l.Sound) : (l.accept e).Sound :=
  ⟨rfl, h.since_sublist.cons_cons e⟩

lemma sound_forget : l.forget.Sound := ⟨rfl, List.nil_sublist _⟩

lemma Sound.mark_mem (h : l.Sound) (hm : l.mark = some m) : m ∈ l.accepted :=
  h.since_sublist.subset (List.mem_of_head? (h.mark_eq ▸ hm))

lemma Within.accept (h : l.Within b) (he : InWindow b e) : (l.accept e).Within b := by
  intro x hx
  rcases List.mem_cons.mp hx with rfl | hx
  · exact he
  · exact h x hx

lemma Sound.mark_or_after (h : l.Sound) (ho : l.Ordered) (hm : l.mark = some m)
    (hx : x ∈ l.since) : x = m ∨ After m x := by
  have hp : l.since.Pairwise After := ho.sublist h.since_sublist
  have hhead : l.since.head? = some m := h.mark_eq ▸ hm
  cases hs : l.since with
  | nil => simp [hs] at hx
  | cons y ys =>
    obtain rfl : y = m := by simpa [hs] using hhead
    rw [hs] at hx hp
    rcases List.mem_cons.mp hx with rfl | hx
    · exact .inl rfl
    · exact .inr (List.rel_of_pairwise_cons hp hx)

/-- **What was accepted since the last forgetting is taken for a repeat.** -/
theorem knows_of_mem_since (h : l.Sound) (ho : l.Ordered) (hw : l.Within b)
    (hx : x ∈ l.since) : l.Knows x := by
  obtain ⟨m, hm⟩ : ∃ m, l.mark = some m := by
    rw [h.mark_eq, ← Option.isSome_iff_exists, List.isSome_head?]
    simpa using List.ne_nil_of_mem hx
  have hwm := hw m (h.mark_mem hm)
  have hwx := hw x (h.since_sublist.subset hx)
  refine ⟨m, hm, ?_⟩
  rw [not_after_iff hwx hwm]
  rcases h.mark_or_after ho hm hx with rfl | hmx
  · exact Nat.le_refl _
  · exact Nat.le_of_lt ((after_iff hwm hwx).mp hmx)

/-- **A number that is not taken for a repeat is newer than everything accepted**, if whatever it
is not newer than was accepted since the last forgetting. -/
theorem Ordered.accept (ho : l.Ordered) (h : l.Sound) (hw : l.Within b) (he : InWindow b e)
    (hnew : ¬ l.Knows e) (hrecent : ∀ x ∈ l.accepted, ¬ After e x → x ∈ l.since) :
    (l.accept e).Ordered := by
  refine List.Pairwise.cons (fun x hx => ?_) ho
  by_contra hex
  -- `x` would have been accepted since the last forgetting, hence not be newer than the mark
  have hxs := hrecent x hx hex
  obtain ⟨m, hm, hxm⟩ := knows_of_mem_since h ho hw hxs
  have hwm := hw m (h.mark_mem hm)
  have hem : After e m := by
    by_contra hn
    exact hnew ⟨m, hm, hn⟩
  rw [not_after_iff (hw x hx) hwm] at hxm
  rw [not_after_iff he (hw x hx)] at hex
  rw [after_iff he hwm] at hem
  omega

end Ledger
