/-
Several control handlers of one host.

A host that reconnects gets a new handler while the old one may still run. The teardown of a
handler begins with a gate, `releaseHostStream`: it goes on only if the host's stream is still its
own. The gate, the stream map and the registry are under different locks, so the gate says nothing
about the steps after it: a new handler may register its stream and its entry in between. The same
holds for a handler that has registered its stream but not yet its entry.
-/
import Mathlib
import Mmokit.Universe.ControlThreads

namespace Mmokit

open Function List Option Registry

variable {H : Type*}

/-! ### What a thread may do in each of its roles -/

namespace ControlAction

def IsRegistration (g : H) : ControlAction H → Prop
  | admitEntry h _ | admitStream h _ _ | registerStream h _ | register h _ | ack h => h = g
  | serve => True
  | _ => False

def IsMessage (g : H) : ControlAction H → Prop
  | touch h | readyOwner h _ | readyState h _ _ | dispatchRelease h _ | releaseCell h _
  | assignCell h _ => h = g
  | _ => False

def IsTeardown (g : H) : ControlAction H → Prop
  | releaseStream h | leave h | markDead h | markLeaving h | remove h | reassignOrphanedCells h _
  | releaseCell h _ => h = g
  | dispatchAssign _ _ | assignCell _ _ => True
  | _ => False

def IsPass : ControlAction H → Prop
  | registerStream _ _ | register _ _ | releaseStream _ => False
  | admitEntry _ _ | admitStream _ _ _ | ack _ => False
  | _ => True

end ControlAction

def ControlAction.stream? : ControlAction H → Option H
  | registerStream h _ => some h
  | _ => none

def ThreadRole.Allows : ThreadRole H → ControlAction H → Prop
  | connecting g => ControlAction.IsRegistration g
  | serving g => ControlAction.IsMessage g
  | closing g => ControlAction.IsTeardown g
  | pass => ControlAction.IsPass

def ThreadRole.risky : ThreadRole H → ControlAction H → Bool
  | closing _, .releaseStream _ => false
  | closing _, _ => true
  | _, .register _ _ => true
  | _, _ => false

namespace Thread

/-- What is left to do fits the role, and a handler that is connecting has one thing to do. -/
structure Shaped (t : Thread H) : Prop where
  allows : ∀ a ∈ t.todo, t.role.Allows a
  single : ∀ g, t.role = .connecting g → t.todo.length ≤ 1

/-- The handler is past the gate of its teardown, or between its two registrations. -/
def Exposed (t : Thread H) : Prop := t.todo.any t.role.risky = true

instance (t : Thread H) : Decidable t.Exposed := inferInstanceAs (Decidable (_ = true))

end Thread

@[simp]
lemma ThreadRole.host?_after (role : ThreadRole H) (a : ControlAction H) :
    (role.after a).host? = role.host? := by
  cases role <;> cases a <;> rfl

section Exec

variable [DecidableEq H] {i : ℕ} {s : Registry H} {ans : Answer H}
  {a : ControlAction H} {todo : List (ControlAction H)}

namespace ControlAction

variable {g : H}

lemma next_isRegistration (h : a.IsRegistration g) (ha : a.next i s ans = some todo) :
    todo.length ≤ 1 ∧ ∀ b ∈ todo, b.IsRegistration g ∧ a ≠ serve := by
  cases a <;> simp only [IsRegistration] at h <;> simp only [next] at ha <;>
    (try split at ha) <;> cases ha <;> simp [IsRegistration, h]

lemma next_isMessage (h : a.IsMessage g) (ha : a.next i s ans = some todo) :
    ∀ b ∈ todo, b.IsMessage g := by
  cases a <;> simp only [IsMessage] at h <;> simp only [next] at ha <;> repeat' split at ha
  all_goals cases ha
  all_goals simp [IsMessage, h]

lemma next_isTeardown (h : a.IsTeardown g) (ha : a.next i s ans = some todo) :
    ∀ b ∈ todo, b.IsTeardown g := by
  cases a <;> simp only [IsTeardown] at h <;> simp only [next] at ha <;> repeat' split at ha
  all_goals cases ha
  case reassignOrphanedCells.isFalse.isTrue.refl =>
    intro b hb
    obtain ⟨a, -, hb⟩ := mem_flatMap.mp hb
    rcases mem_pair.mp hb with rfl | rfl
    · exact h
    · trivial
  all_goals simp [IsTeardown, h]

lemma next_isPass (h : a.IsPass) (ha : a.next i s ans = some todo) : ∀ b ∈ todo, b.IsPass := by
  cases a <;> simp only [IsPass] at h <;> simp only [next] at ha <;> repeat' split at ha
  all_goals cases ha
  case checkLiveness =>
    intro b hb
    obtain ⟨g, -, hb⟩ := mem_flatMap.mp hb
    simp only [mem_cons, not_mem_nil, or_false] at hb
    rcases hb with rfl | rfl | rfl <;> trivial
  case reassignOrphanedCells.isFalse.isTrue.refl =>
    intro b hb
    obtain ⟨a, -, hb⟩ := mem_flatMap.mp hb
    rcases mem_pair.mp hb with rfl | rfl <;> trivial
  case enumerateCells =>
    intro b hb
    obtain ⟨a, -, rfl⟩ := mem_map.mp hb
    trivial
  case commit =>
    intro b hb
    rcases mem_registryDelta hb with ⟨h, c, rfl, -⟩ | ⟨a, -, rfl⟩ <;> trivial
  all_goals simp [IsPass]

/-- What an action keeps, unless it registers a stream or an entry. -/
structure Keeps (s s' : Registry H) : Prop where
  gen : s'.gen = s.gen
  streamSeq : s'.streamSeq = s.streamSeq
  streams : ∀ h j, s'.streams h = some j → s.streams h = some j
  hosts : ∀ h ∈ s'.ownership.hosts, h ∈ s.ownership.hosts
  installedBy : ∀ h, (s'.entry h).installedBy = (s.entry h).installedBy

lemma keeps_setState (h : H) (state : RemoteHostState) : Keeps s (s.setState h state) := by
  unfold setState
  split
  · refine ⟨rfl, rfl, fun _ _ => id, fun _ => id, fun g => ?_⟩
    by_cases hg : g = h
    · subst hg
      simp
    · simp [update_of_ne hg]
  · exact ⟨rfl, rfl, fun _ _ => id, fun _ => id, fun _ => rfl⟩

lemma keeps_effect (hstream : ∀ h serviceOnly, a ≠ registerStream h serviceOnly)
    (hentry : ∀ h serviceOnly, a ≠ register h serviceOnly) : Keeps s (a.effect i s) := by
  cases a with
  | registerStream h serviceOnly => exact (hstream _ _ rfl).elim
  | register h serviceOnly => exact (hentry _ _ rfl).elim
  | touch h =>
    simp only [effect, Registry.touch]
    split
    · exact keeps_setState h .live
    · exact ⟨rfl, rfl, fun _ _ => id, fun _ => id, fun _ => rfl⟩
  | markDead h => exact keeps_setState h .dead
  | markLeaving h => exact keeps_setState h .leaving
  | remove h => exact ⟨rfl, rfl, fun _ _ => id, fun _ hg => mem_of_mem_filter hg, fun _ => rfl⟩
  | releaseStream h =>
    simp only [effect]
    split
    · refine ⟨rfl, rfl, fun g j hg => ?_, fun _ => id, fun _ => rfl⟩
      by_cases hgh : g = h
      · subst hgh
        simp [deleteStream] at hg
      · simpa [deleteStream, update_of_ne hgh] using hg
    · exact ⟨rfl, rfl, fun _ _ => id, fun _ => id, fun _ => rfl⟩
  | assignCell h c =>
    refine ⟨rfl, rfl, fun _ _ => id, fun g hg => ?_, fun _ => rfl⟩
    simp only [effect, Registry.assignCell, Ownership.assignCell] at hg
    split at hg <;> exact hg
  | _ => exact ⟨rfl, rfl, fun _ _ => id, fun _ => id, fun _ => rfl⟩

end ControlAction

lemma Thread.Shaped.next {role : ThreadRole H} {rest : List (ControlAction H)}
    (h : Shaped ⟨role, a :: rest⟩) (ha : a.next i s ans = some todo) :
    Shaped ⟨role.after a, todo ++ rest⟩ := by
  have ha₀ : role.Allows a := h.allows a (mem_cons_self ..)
  have hrest : ∀ b ∈ rest, role.Allows b := fun b hb => h.allows b (mem_cons_of_mem _ hb)
  cases role with
  | connecting g =>
    -- the only action, so nothing is left of the registration when the handler begins to serve
    obtain rfl : rest = [] := by simpa using h.single g rfl
    obtain ⟨hlen, hnext⟩ := a.next_isRegistration ha₀ ha
    by_cases hserve : a = .serve
    · obtain rfl : todo = [] :=
        eq_nil_iff_forall_not_mem.mpr fun b hb => (hnext b hb).2 hserve
      exact ⟨by simp, by simp⟩
    have hrole : (ThreadRole.connecting g).after a = .connecting g := by
      cases a <;> first | rfl | exact (hserve rfl).elim
    rw [append_nil, hrole]
    exact ⟨fun b hb => (hnext b hb).1, fun _ _ => hlen⟩
  | serving g =>
    refine ⟨fun b hb => ?_, fun g h => by cases h⟩
    rcases mem_append.mp hb with hb | hb
    · exact ControlAction.next_isMessage ha₀ ha b hb
    · exact hrest b hb
  | closing g =>
    refine ⟨fun b hb => ?_, fun g h => by cases h⟩
    rcases mem_append.mp hb with hb | hb
    · exact ControlAction.next_isTeardown ha₀ ha b hb
    · exact hrest b hb
  | pass =>
    refine ⟨fun b hb => ?_, fun g h => by cases h⟩
    rcases mem_append.mp hb with hb | hb
    · exact ControlAction.next_isPass ha₀ ha b hb
    · exact hrest b hb

end Exec

namespace ControlPlane

section Statement

variable (s : ControlPlane H)

def Handles (i : ℕ) (h : H) : Prop := ∃ t, s.threads[i]? = some t ∧ t.role.host? = some h

/-- No handler of the host has registered its stream later. -/
def Latest (i : ℕ) (h : H) : Prop := ∀ j, s.Handles j h → s.registry.gen j ≤ s.registry.gen i

end Statement

/-- The host whose entry an action of a handler removes, marks dead or replaces, or whose cells it
gives to others. -/
def strikes : ThreadRole H → ControlAction H → Option H
  | .pass, _ => none
  | _, .remove h | _, .markDead h | _, .register h _ => some h
  | .closing _, .releaseCell h _ => some h
  | _, _ => none

section Conditions

variable (s : ControlPlane H)

/-- A handler strikes an entry that a handler with a later stream has installed. -/
def Damages : ControlEvent H → Prop
  | .run i _ => ∃ t ∈ s.threads[i]?, ∃ a ∈ t.todo.head?, ∃ h ∈ strikes t.role a,
      h ∈ s.registry.ownership.hosts ∧
        ∃ j ∈ (s.registry.entry h).installedBy, s.registry.gen i < s.registry.gen j
  | _ => False

/-- No handler registers its stream while another handler of the host is exposed. -/
def Unexposed : ControlEvent H → Prop
  | .run i _ => ∀ t ∈ s.threads[i]?, ∀ a ∈ t.todo.head?, ∀ h ∈ a.stream?,
      ∀ t ∈ s.threads, t.role.host? = some h → ¬ t.Exposed
  | _ => True

/-- Before any control stream: the registry may hold local hosts. -/
structure NoStreams : Prop where
  threads : s.threads = []
  streams : ∀ h, s.registry.streams h = none
  gen : ∀ i, s.registry.gen i = 0
  installedBy : ∀ h, (s.registry.entry h).installedBy = none

/-- An exposed handler is the latest one of its host, and so is the one whose stream the
host has. -/
structure HandlerInv (s : ControlPlane H) : Prop where
  shaped : ∀ (i : ℕ) t, s.threads[i]? = some t → t.Shaped
  fresh : ∀ i, s.threads.length ≤ i → s.registry.gen i = 0
  bounded : ∀ i, s.registry.gen i ≤ s.registry.streamSeq
  stream : ∀ h i, s.registry.streams h = some i → s.Latest i h
  exposed : ∀ (i : ℕ) t h, s.threads[i]? = some t → t.role.host? = some h → t.Exposed → s.Latest i h
  installed : ∀ h j, h ∈ s.registry.ownership.hosts →
    (s.registry.entry h).installedBy = some j → s.Handles j h

end Conditions

variable {s t : ControlPlane H}

lemma NoStreams.handlerInv (h : s.NoStreams) : s.HandlerInv where
  shaped i t ht := by simp [h.threads] at ht
  fresh i _ := h.gen i
  bounded i := by simp [h.gen i]
  stream g i hi := by simp [h.streams g] at hi
  exposed i t g ht := by simp [h.threads] at ht
  installed g j _ hj := by simp [h.installedBy g] at hj

variable {i : ℕ} {r : Registry H} {h : H}

lemma handles_set {j : ℕ} {u u' : Thread H} (hi : s.threads[i]? = some u)
    (hrole : u'.role.host? = u.role.host?) :
    Handles ⟨r, s.threads.set i u'⟩ j h ↔ s.Handles j h := by
  unfold Handles
  by_cases hij : i = j
  · subst hij
    have hlt : i < s.threads.length := (List.getElem?_eq_some_iff.mp hi).1
    simp [hi, List.getElem?_set_self hlt, hrole]
  · simp [List.getElem?_set_ne hij]

lemma HandlerInv.set {u u' : Thread H} (hI : s.HandlerInv) (hi : s.threads[i]? = some u)
    (hrole : u'.role.host? = u.role.host?) (hshape : u'.Shaped) (hgen : r.gen = s.registry.gen)
    (hseq : r.streamSeq = s.registry.streamSeq)
    (hstreams : ∀ h j, r.streams h = some j → s.registry.streams h = some j)
    (hinstalled : ∀ h j, h ∈ r.ownership.hosts → (r.entry h).installedBy = some j → s.Handles j h)
    (hexposed : ∀ h, u'.role.host? = some h → u'.Exposed → s.Latest i h) :
    HandlerInv ⟨r, s.threads.set i u'⟩ := by
  have hlatest : ∀ {j h}, s.Latest j h → Latest ⟨r, s.threads.set i u'⟩ j h := by
    intro j h hj k hk
    simpa [hgen] using hj k ((handles_set hi hrole).mp hk)
  refine ⟨fun j v hv => ?_, fun j hj => ?_, fun j => ?_, fun h j hj => ?_, fun j v h hv hh he => ?_,
    fun h j hh hj => ?_⟩
  · rcases thread_of_set s hi hv with ⟨-, hv⟩ | ⟨-, rfl⟩
    · exact hI.shaped j v hv
    · exact hshape
  · rw [hgen]
    exact hI.fresh j (by simpa using hj)
  · rw [hgen, hseq]
    exact hI.bounded j
  · exact hlatest (hI.stream h j (hstreams h j hj))
  · rcases thread_of_set s hi hv with ⟨-, hv⟩ | ⟨rfl, rfl⟩
    · exact hlatest (hI.exposed j v h hv hh he)
    · exact hlatest (hexposed h hh he)
  · exact (handles_set hi hrole).mpr (hinstalled h j hh hj)

variable {role : ThreadRole H} {a : ControlAction H}

lemma HandlerInv.spawn (hI : s.HandlerInv) (ha : role.Allows a) (hrisky : role.risky a = false) :
    (s.spawn role a).HandlerInv := by
  have hlatest : ∀ {j h}, s.Latest j h → (s.spawn role a).Latest j h := by
    rintro j h hj k ⟨v, hv, hh⟩
    rcases thread_of_spawn s hv with hv | ⟨rfl, -⟩
    · exact hj k ⟨v, hv, hh⟩
    · exact (hI.fresh _ le_rfl).trans_le (Nat.zero_le _)
  refine ⟨fun j v hv => ?_, fun j hj => ?_, hI.bounded, fun h j hj => hlatest (hI.stream h j hj),
    fun j v h hv hh he => ?_, fun h j hh hj => ?_⟩
  · rcases thread_of_spawn s hv with hv | ⟨-, rfl⟩
    · exact hI.shaped j v hv
    · exact ⟨by simpa using ha, by simp⟩
  · have hlen : (s.spawn role a).threads.length = s.threads.length + 1 :=
      by simp [ControlPlane.spawn]
    exact hI.fresh j (by omega)
  · rcases thread_of_spawn s hv with hv | ⟨-, rfl⟩
    · exact hlatest (hI.exposed j v h hv hh he)
    · simp [Thread.Exposed, hrisky] at he
  · obtain ⟨v, hv, hrole⟩ := hI.installed h j hh hj
    have hlt : j < s.threads.length := (List.getElem?_eq_some_iff.mp hv).1
    exact ⟨v, (getElem?_spawn s hlt).trans hv, hrole⟩

variable [DecidableEq H]

/-- What exposes a handler: the gate that lets it pass, or the registration of its stream. -/
lemma exposed_next {ans : Answer H} {rest todo : List (ControlAction H)}
    (hshape : Thread.Shaped ⟨role, a :: rest⟩) (hrole : role.host? = some h)
    (ha : a.next i s.registry ans = some todo) (he : Thread.Exposed ⟨role.after a, todo ++ rest⟩) :
    Thread.Exposed ⟨role, a :: rest⟩ ∨ s.registry.streams h = some i ∨
      ∃ serviceOnly, a = .registerStream h serviceOnly := by
  have ha₀ : role.Allows a := hshape.allows a (mem_cons_self ..)
  cases role with
  | connecting g =>
    obtain rfl : rest = [] := by simpa using hshape.single g rfl
    obtain rfl : g = h := some.inj hrole
    by_cases hreg : ∃ serviceOnly, a = .registerStream g serviceOnly
    · exact .inr (.inr hreg)
    cases a <;> simp only [ThreadRole.Allows, ControlAction.IsRegistration] at ha₀ <;>
      simp only [ControlAction.next] at ha
    case registerStream =>
      subst ha₀
      exact (hreg ⟨_, rfl⟩).elim
    all_goals (try split at ha) <;> cases ha <;>
      simp [Thread.Exposed, ThreadRole.after, ThreadRole.risky] at he
  | serving g =>
    -- no message leads to a registration
    obtain ⟨b, hb, hrisky⟩ := any_eq_true.mp he
    have hmsg : b.IsMessage g := (hshape.next ha).allows b hb
    cases b <;> simp [ControlAction.IsMessage] at hmsg <;> cases hrisky
  | closing g =>
    obtain rfl : g = h := some.inj hrole
    by_cases hgate : a = .releaseStream g
    · subst hgate
      by_cases hstream : s.registry.streams g = some i
      · exact .inr (.inl hstream)
      · obtain rfl : [] = todo := by simpa [ControlAction.next, hstream] using ha
        exact .inl (by simpa [Thread.Exposed, ThreadRole.after, ThreadRole.risky] using he)
    · refine .inl (any_eq_true.mpr ⟨a, mem_cons_self .., ?_⟩)
      cases a <;> first | rfl | exact (hgate (ha₀ ▸ rfl)).elim
  | pass => cases hrole

lemma HandlerInv.registerStream {serviceOnly : Bool} {rest : List (ControlAction H)}
    (hI : s.HandlerInv) (hi : s.threads[i]? = some ⟨role, .registerStream h serviceOnly :: rest⟩)
    (hrole : role.host? = some h) (hclear : ∀ t ∈ s.threads, t.role.host? = some h → ¬ t.Exposed)
    (hshape : Thread.Shaped ⟨role, .register h serviceOnly :: rest⟩) :
    HandlerInv ⟨s.registry.registerStream i h,
      s.threads.set i ⟨role, .register h serviceOnly :: rest⟩⟩ := by
  set s' : ControlPlane H := ⟨s.registry.registerStream i h,
    s.threads.set i ⟨role, .register h serviceOnly :: rest⟩⟩ with hs'
  have hhandles : ∀ {j g}, s'.Handles j g ↔ s.Handles j g := handles_set hi rfl
  have hgen_i : s'.registry.gen i = s.registry.streamSeq + 1 := update_self ..
  have hgen : ∀ {j}, j ≠ i → s'.registry.gen j = s.registry.gen j := fun hj =>
    update_of_ne hj ..
  have hbound : ∀ j, s'.registry.gen j ≤ s.registry.streamSeq + 1 := by
    intro j
    by_cases hj : j = i
    · exact (hj ▸ hgen_i).le
    · exact (hgen hj).trans_le ((hI.bounded j).trans (Nat.le_succ _))
  have hlatest_i : ∀ g, s'.Latest i g := fun g k _ => hgen_i ▸ hbound k
  -- the handlers of other hosts keep their generations
  have hlatest : ∀ {j g}, g ≠ h → s.Latest j g → s'.Latest j g := by
    intro j g hg hj k hk
    by_cases hji : j = i
    · exact hji ▸ hlatest_i g k hk
    have hki : k ≠ i := by
      rintro rfl
      obtain ⟨v, hv, hvg⟩ := hhandles.mp hk
      obtain rfl := some.inj (hv.symm.trans hi)
      exact hg (some.inj (hvg.symm.trans hrole))
    rw [hgen hki, hgen hji]
    exact hj k (hhandles.mp hk)
  refine ⟨fun j v hv => ?_, fun j hj => ?_, hbound, fun g j hj => ?_, fun j v g hv hg he => ?_,
    fun g j hg hj => hhandles.mpr (hI.installed g j hg hj)⟩
  · rcases thread_of_set s hi hv with ⟨-, hv⟩ | ⟨-, rfl⟩
    · exact hI.shaped j v hv
    · exact hshape
  · have hlt : i < s.threads.length := (List.getElem?_eq_some_iff.mp hi).1
    have hlen : s'.threads.length = s.threads.length := List.length_set
    rw [hgen (by omega)]
    exact hI.fresh j (by omega)
  · by_cases hgh : g = h
    · subst hgh
      have hstream : s'.registry.streams g = some i := update_self ..
      obtain rfl : i = j := some.inj (hstream.symm.trans hj)
      exact hlatest_i g
    · exact hlatest hgh (hI.stream g j ((update_of_ne hgh ..).symm.trans hj))
  · rcases thread_of_set s hi hv with ⟨-, hv⟩ | ⟨rfl, rfl⟩
    · have hgh : g ≠ h := fun hgh => hclear v (mem_of_getElem? hv) (hgh ▸ hg) he
      exact hlatest hgh (hI.exposed j v g hv hg he)
    · exact hlatest_i g

variable {e : ControlEvent H}

lemma HandlerInv.step (hI : s.HandlerInv) (hclear : s.Unexposed e) (hstep : s.step e = some t) :
    t.HandlerInv := by
  rcases step_cases hstep
    with ⟨role, a, hstart, rfl⟩ | ⟨i, msg, g, rfl, hi, rfl⟩ | ⟨i, g, rfl, hi, rfl⟩ |
    ⟨i, ans, role, a, rest, todo, rfl, hi, htodo, rfl⟩
  · cases e <;> cases hstart <;> exact hI.spawn (by trivial) rfl
  · refine hI.set hi rfl ?_ rfl rfl (fun _ _ => id) hI.installed fun h _ he => ?_
    · cases msg <;>
        exact ⟨by simp [HostMessage.actions, ThreadRole.Allows, ControlAction.IsMessage],
        by simp⟩
    · cases msg <;> cases he
  · refine hI.set hi rfl ?_ rfl rfl (fun _ _ => id) hI.installed fun h _ he => by cases he
    exact ⟨by simp [ThreadRole.Allows, ControlAction.IsTeardown], by simp⟩
  · have hshape := (hI.shaped i _ hi).next htodo
    have ha := (hI.shaped i _ hi).allows a (mem_cons_self ..)
    by_cases hstream : ∃ h serviceOnly, a = .registerStream h serviceOnly
    · obtain ⟨h, serviceOnly, rfl⟩ := hstream
      cases htodo
      obtain ⟨g, rfl⟩ : ∃ g, role = .connecting g := by
        cases role <;> first | exact ⟨_, rfl⟩ | exact ha.elim
      obtain rfl : h = g := ha
      exact hI.registerStream hi rfl (hclear _ hi _ rfl h rfl) hshape
    · have hexposed : ∀ h, (role.after a).host? = some h →
          Thread.Exposed ⟨role.after a, todo ++ rest⟩ → s.Latest i h := by
        intro h hrole he
        rw [ThreadRole.host?_after] at hrole
        rcases exposed_next (hI.shaped i _ hi) hrole htodo he with he | hgate | ⟨_, rfl⟩
        · exact hI.exposed i _ h hi hrole he
        · exact hI.stream h i hgate
        · exact (hstream ⟨_, _, rfl⟩).elim
      by_cases hentry : ∃ h serviceOnly, a = .register h serviceOnly
      · obtain ⟨h, serviceOnly, rfl⟩ := hentry
        obtain ⟨g, rfl⟩ : ∃ g, role = .connecting g := by
          cases role <;> first | exact ⟨_, rfl⟩ | exact ha.elim
        obtain rfl : h = g := ha
        refine hI.set hi rfl hshape rfl rfl (fun _ _ => id) (fun g j hg hj => ?_) hexposed
        -- the new entry is this handler's, the others are as they were
        simp only [ControlAction.effect, register] at hg hj
        by_cases hgh : g = h
        · subst hgh
          obtain rfl : i = j := by simpa using hj
          exact ⟨_, hi, rfl⟩
        · rw [update_of_ne hgh] at hj
          exact hI.installed g j (by simpa [hgh] using hg) hj
      · have hkeeps := ControlAction.keeps_effect (i := i) (s := s.registry)
          (fun h b hab => hstream ⟨h, b, hab⟩) (fun h b hab => hentry ⟨h, b, hab⟩)
        exact hI.set hi (ThreadRole.host?_after ..) hshape hkeeps.gen hkeeps.streamSeq
          hkeeps.streams (fun h j hh hj => hI.installed h j (hkeeps.hosts h hh)
            ((hkeeps.installedBy h).symm.trans hj)) hexposed

omit [DecidableEq H] in
lemma HandlerInv.not_damages (hI : s.HandlerInv) : ¬ s.Damages e := by
  cases e with
  | run i ans =>
    rintro ⟨u, hu, a, ha, h, hstrike, hhost, j, hj, hlt⟩
    have hmem : a ∈ u.todo := mem_of_mem_head? ha
    have hallow := (hI.shaped i u hu).allows a hmem
    have hrisky : u.role.risky a = true ∧ u.role.host? = some h := by
      cases hrole : u.role <;> rw [hrole] at hallow hstrike <;> cases a <;> cases hstrike <;>
        first | exact hallow.elim | exact ⟨rfl, congrArg some hallow.symm⟩
    have hlatest := hI.exposed i u h hu hrisky.2 (any_eq_true.mpr ⟨a, hmem, hrisky.1⟩)
    exact absurd (hlatest j (hI.installed h j hhost hj)) (Nat.not_le.mpr hlt)
  | _ => exact id

/-- **A superseded handler never damages its replacement**, in runs in which no handler registers
its stream while another handler of the same host is exposed. -/
theorem superseded_never_damages {e : ControlEvent H} (h₀ : s.NoStreams)
    (hrun : Run (Steps step) Unexposed s t) : ¬ t.Damages e :=
  (hrun.invariant (I := HandlerInv) h₀.handlerInv fun hI hK hstep => hI.step hK hstep).not_damages

instance (e : ControlEvent H) : Decidable (s.Unexposed e) := by
  induction e using ControlEvent.casesOn <;> dsimp only [Unexposed] <;> infer_instance

/-- A host connects, goes silent, and connects again; then its first handler sees that it has been
replaced and runs into the gate of its teardown. -/
theorem superseded_never_damages_reconnect : ∃ t : ControlPlane Unit,
    Run (Steps step) Unexposed (start []) t ∧
    ((t.registry.entry ()).installedBy = some 1 ∧
      t.threads.head?.map Thread.todo = some [.releaseStream ()]) ∧ ∀ e, ¬ t.Damages e := by
  obtain ⟨t, hrun, ht⟩ := exists_run (s := start []) step Unexposed
    (fun t : ControlPlane Unit => (t.registry.entry ()).installedBy = some 1 ∧
      t.threads.head?.map Thread.todo = some [.releaseStream ()])
    (registration 0 () ++
      [.connect () false, .run 1 { fresh := false }, .run 1 {}, .run 1 {}, .run 1 {}, .close 0])
    (by decide +kernel)
  exact ⟨t, hrun, ht, fun e => superseded_never_damages
    ⟨rfl, fun _ => rfl, fun _ => rfl, fun _ => rfl⟩ hrun⟩

/-- A handler passes the gate of its teardown; the host reconnects, and the new handler registers
its stream and its entry; then the old handler removes the entry. -/
theorem superseded_removes_entry : ∃ t u : ControlPlane Unit,
    Run (Steps step) Always (start []) t ∧ t.Damages (.run 0 {}) ∧ t.step (.run 0 {}) = some u ∧
      () ∈ t.registry.ownership.hosts ∧ () ∉ u.registry.ownership.hosts := by
  obtain ⟨t, hrun, hthread, hhost, hinstalled, hgen⟩ := exists_run (s := start []) step Always
    (fun t : ControlPlane Unit => t.threads[0]? = some ⟨.closing (), [.remove ()]⟩ ∧
      () ∈ t.registry.ownership.hosts ∧ (t.registry.entry ()).installedBy = some 1 ∧
      t.registry.gen 0 < t.registry.gen 1)
    (registration 0 () ++ [.close 0, .run 0 {}] ++
      [.connect () false, .run 1 {}, .run 1 {}, .run 1 {}, .run 1 {}] ++ [.run 0 {}, .run 0 {}])
    (by decide +kernel)
  refine ⟨t, ⟨t.registry.remove (), t.threads.set 0 ⟨.closing (), []⟩⟩, hrun,
    ⟨_, hthread, _, rfl, (), rfl, hhost, 1, hinstalled, hgen⟩, ?_, hhost, by simp [remove]⟩
  simp [step, runThread, hthread, ControlAction.next, ControlAction.effect, ThreadRole.after]

end ControlPlane

end Mmokit
