/-
Smoothing of paths (`SmoothLOS` in `pkg/pathfinding/smooth.go`).

From a waypoint the loop goes on to the last one that it sees, and to the next one where it sees
none. The index `i` of the source is a waypoint here, together with the waypoints after it.
-/
import Mathlib.Data.List.Infix

namespace Mmokit.Pathfinding

variable {V : Type*} (clear : V → V → Bool)

/-- The rest of a path from the last waypoint that `a` sees: the later ones are asked first. -/
def farthest (a : V) : List V → Option (V × List V)
  | [] => none
  | b :: rest =>
    match farthest a rest with
    | some far => some far
    | none => if clear a b then some (b, rest) else none

variable {clear} {a c : V}

lemma farthest_eq_some {path s : List V} (h : farthest clear a path = some (c, s)) :
    (c :: s) <:+ path ∧ clear a c = true := by
  induction path with
  | nil => simp [farthest] at h
  | cons b rest ih =>
    rw [farthest] at h
    split at h
    · rename_i far hfar
      obtain ⟨hsuffix, hclear⟩ := ih (hfar.trans h)
      exact ⟨hsuffix.trans (List.suffix_cons b rest), hclear⟩
    · grind

variable (clear)

def smoothFrom (a : V) : List V → List V
  | [] => []
  | b :: rest =>
    match _hfar : farthest clear a (b :: rest) with
    | some (c, s) => c :: smoothFrom c s
    | none => b :: smoothFrom b rest
termination_by path => path.length
decreasing_by
  · have hlength := (farthest_eq_some _hfar).1.length_le
    simpa [Nat.lt_iff_add_one_le] using hlength
  · simp

def smoothLOS (path : List V) : List V :=
  match path with
  | a :: b :: c :: rest => a :: smoothFrom clear a (b :: c :: rest)
  | _ => path

/-- A part of a path that starts at `a` and ends where the path ends: each waypoint is in the path
and after the one before it, and the two are neighbours or see each other. -/
inductive Shortcut : V → List V → List V → Prop
  | nil {a : V} : Shortcut a [] []
  | cons {a c : V} {path s out : List V} : (c :: s) <:+ path →
      (c :: s = path ∨ clear a c = true) → Shortcut c s out → Shortcut a path (c :: out)

lemma shortcut_smoothFrom (a : V) (path : List V) :
    Shortcut clear a path (smoothFrom clear a path) := by
  fun_induction smoothFrom clear a path with
  | case1 a => exact .nil
  | case2 a b rest c s hfar ih =>
    obtain ⟨hsuffix, hclear⟩ := farthest_eq_some hfar
    exact .cons hsuffix (.inr hclear) ih
  | case3 a b rest hfar ih => exact .cons List.suffix_rfl (.inl rfl) ih

namespace Shortcut

variable {clear} {path out : List V}

lemma sublist (h : Shortcut clear a path out) : out.Sublist path := by
  induction h with
  | nil => exact .slnil
  | cons hsuffix _ _ ih => exact (ih.cons_cons _).trans hsuffix.sublist

lemma getLast (h : Shortcut clear a path out) : (a :: out).getLast? = (a :: path).getLast? := by
  induction h with
  | nil => rfl
  | cons hsuffix _ _ ih =>
    obtain ⟨before, rfl⟩ := hsuffix
    rw [List.getLast?_cons_cons, ih, ← List.cons_append, List.getLast?_append_cons]

lemma isChain (h : Shortcut clear a path out) :
    (a :: out).IsChain fun b c => [b, c] <:+: a :: path ∨ clear b c = true := by
  induction h with
  | nil => simp
  | @cons a c path s out hsuffix hstep _ ih =>
    have hinfix : (c :: s) <:+: a :: path := (hsuffix.trans (List.suffix_cons a path)).isInfix
    refine .cons_cons (hstep.imp_left fun heq => ?_)
      (ih.imp fun _ _ h => h.imp_left (·.trans hinfix))
    subst heq
    exact ⟨[], s, rfl⟩

end Shortcut

/-- **Smoothing is safe**: what it keeps is a part of the path in the same order, with the same
ends, and where it leaves something out there is a clear line of sight. -/
theorem smoothLOS_safe (clear : V → V → Bool) (path : List V) :
    (smoothLOS clear path).Sublist path ∧ (smoothLOS clear path).head? = path.head? ∧
      (smoothLOS clear path).getLast? = path.getLast? ∧
      (smoothLOS clear path).IsChain fun b c => [b, c] <:+: path ∨ clear b c = true := by
  unfold smoothLOS
  split
  · rename_i a b c rest
    have h := shortcut_smoothFrom clear a (b :: c :: rest)
    exact ⟨h.sublist.cons_cons a, rfl, h.getLast, h.isChain⟩
  · rename_i hshort
    refine ⟨.refl _, rfl, rfl, ?_⟩
    match path with
    | [] => simp
    | [a] => simp
    | [a, b] => simp
    | a :: b :: c :: rest => exact absurd rfl (hshort a b c rest)

/-! ### Nothing is left to smooth -/

section Final

/-- No waypoint sees one beyond the next. -/
def Final : List V → Prop
  | a :: b :: rest => (∀ c ∈ rest, clear a c = false) ∧ Final (b :: rest)
  | _ => True

variable {clear} {path s : List V}

lemma farthest_eq_none_iff : farthest clear a path = none ↔ ∀ c ∈ path, clear a c = false := by
  induction path with
  | nil => simp [farthest]
  | cons b rest ih =>
    rw [farthest]
    cases hfar : farthest clear a rest with
    | none => simpa [hfar] using fun _ => ih.mp hfar
    | some far =>
      have hseen : ¬ ∀ c ∈ rest, clear a c = false := by simp [← ih, hfar]
      simpa using fun _ => by simpa using hseen

lemma not_clear_of_farthest (h : farthest clear a path = some (c, s)) :
    ∀ d ∈ s, clear a d = false := by
  induction path with
  | nil => simp [farthest] at h
  | cons b rest ih =>
    rw [farthest] at h
    split at h
    · rename_i far hfar
      exact ih (hfar.trans h)
    · rename_i hnone
      obtain ⟨-, heq⟩ := Option.ite_none_right_eq_some.mp h
      obtain ⟨-, rfl⟩ := Prod.mk.inj (Option.some.inj heq)
      exact farthest_eq_none_iff.mp hnone

lemma final_smoothFrom (a : V) (path : List V) : Final clear (a :: smoothFrom clear a path) := by
  fun_induction smoothFrom clear a path with
  | case1 a => trivial
  | case2 a b rest c s hfar ih =>
    -- what is kept comes from `s`, beyond the last waypoint that `a` sees
    refine ⟨fun d hd => not_clear_of_farthest hfar d ?_, ih⟩
    exact (shortcut_smoothFrom clear c s).sublist.mem hd
  | case3 a b rest hfar ih =>
    refine ⟨fun d hd => farthest_eq_none_iff.mp hfar d (List.mem_cons_of_mem b ?_), ih⟩
    exact (shortcut_smoothFrom clear b rest).sublist.mem hd

lemma smoothFrom_of_final (h : Final clear (a :: path)) : smoothFrom clear a path = path := by
  induction path generalizing a with
  | nil => simp [smoothFrom]
  | cons b rest ih =>
    have hfar : farthest clear a (b :: rest) = if clear a b then some (b, rest) else none := by
      rw [farthest, farthest_eq_none_iff.mpr h.1]
    rw [smoothFrom]
    split
    · rename_i hsome
      rw [hfar] at hsome
      obtain ⟨-, heq⟩ := Option.ite_none_right_eq_some.mp hsome
      obtain ⟨rfl, rfl⟩ := Prod.mk.inj (Option.some.inj heq)
      rw [ih h.2]
    · rw [ih h.2]

/-- **A smoothed path is smooth**: no waypoint of it sees one beyond the next, and to smooth it
again changes nothing. -/
theorem smoothLOS_final (clear : V → V → Bool) (path : List V) :
    Final clear (smoothLOS clear path) ∧
      smoothLOS clear (smoothLOS clear path) = smoothLOS clear path := by
  have hfinal : Final clear (smoothLOS clear path) := by
    unfold smoothLOS
    split
    · exact final_smoothFrom _ _
    · rename_i hshort
      match path with
      | [] => trivial
      | [a] => trivial
      | [a, b] => simp [Final]
      | a :: b :: c :: rest => exact absurd rfl (hshort a b c rest)
  refine ⟨hfinal, ?_⟩
  match hpath : smoothLOS clear path with
  | [] => rfl
  | [a] => rfl
  | [a, b] => rfl
  | a :: b :: c :: rest =>
    rw [hpath] at hfinal
    exact congrArg (a :: ·) (smoothFrom_of_final hfinal)

end Final

end Mmokit.Pathfinding
