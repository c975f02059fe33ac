/-
Saving players (`examples/space/internal/game`: `playerdb.go`, `player_flusher.go`).

Which players have to be saved is kept in two layers. The repository has a set of dirty players; a
flush turns them into snapshots in the flusher's maps and empties the set. The flusher then writes
all snapshots it has in one transaction, and puts them back if the transaction fails, for the next
flush to try again. But a flush of the repository that finds no dirty player returns before it asks
the flusher.
-/
import Mathlib.Data.List.AList
import Mmokit.Library.KeyedFold
import Mmokit.Library.Runs

namespace Mmokit.Game

open Function List AList

variable {UserID Data Engine State : Type*} [DecidableEq UserID]

inductive Fault
  | begin
  | engineSave
  | gameSave
  | commit
  deriving DecidableEq

/-- The rows that wait to be written. -/
structure PlayerFlusher (UserID Engine State : Type*) where
  dirtyEngine : AList fun _ : UserID => Engine
  dirtyGameState : AList fun _ : UserID => State

structure Database (UserID Engine State : Type*) where
  engine : UserID → Option Engine
  gameState : UserID → Option State

def saveBatch {α : Type*} (rows : UserID → Option α) (snaps : AList fun _ : UserID => α) :
    UserID → Option α :=
  fun u => (snaps.lookup u).or (rows u)

namespace PlayerFlusher

def empty : PlayerFlusher UserID Engine State := ⟨∅, ∅⟩

def mark (f : PlayerFlusher UserID Engine State) (u : UserID) (engineSnap : Engine)
    (gameSnap : State) : PlayerFlusher UserID Engine State :=
  ⟨f.dirtyEngine.insert u engineSnap, f.dirtyGameState.insert u gameSnap⟩

/-- `restoreDirty`: what was recorded since takes precedence. -/
def restoreDirty (f : PlayerFlusher UserID Engine State)
    (engineSnaps : AList fun _ : UserID => Engine) (gameSnaps : AList fun _ : UserID => State) :
    PlayerFlusher UserID Engine State :=
  ⟨f.dirtyEngine ∪ engineSnaps, f.dirtyGameState ∪ gameSnaps⟩

def flush (f : PlayerFlusher UserID Engine State) (db : Database UserID Engine State) :
    Option Fault → PlayerFlusher UserID Engine State × Database UserID Engine State × Except Fault ℕ
  | fault =>
    if f.dirtyEngine.entries.isEmpty then (f, db, .ok 0)
    else
      match fault with
      | some e => (empty.restoreDirty f.dirtyEngine f.dirtyGameState, db, .error e)
      | none =>
        (empty, ⟨saveBatch db.engine f.dirtyEngine, saveBatch db.gameState f.dirtyGameState⟩,
          .ok f.dirtyEngine.entries.length)

end PlayerFlusher

def addDirty (dirty : List UserID) (u : UserID) : List UserID :=
  if u ∈ dirty then dirty else u :: dirty

lemma mem_addDirty {dirty : List UserID} {u v : UserID} :
    v ∈ addDirty dirty u ↔ v = u ∨ v ∈ dirty := by
  unfold addDirty
  split
  · next hu =>
    refine ⟨.inr, ?_⟩
    rintro (rfl | hv)
    · exact hu
    · exact hv
  · exact mem_cons

lemma nodup_addDirty {dirty : List UserID} (h : dirty.Nodup) (u : UserID) :
    (addDirty dirty u).Nodup := by
  unfold addDirty
  split
  · exact h
  · exact nodup_cons.mpr ⟨by assumption, h⟩

/-- The repository, its flusher and the database. `mutated` are the players changed so far,
`unmarked` those of them that are yet to be marked dirty. -/
structure PlayerStore (UserID Data Engine State : Type*) where
  players : UserID → Option Data
  dirty : List UserID
  flusher : PlayerFlusher UserID Engine State
  db : Database UserID Engine State
  mutated : List UserID
  unmarked : List UserID
  nodup : dirty.Nodup

inductive StoreEvent (UserID Data : Type*)
  | bind (u : UserID) (d : Data)
  | mutate (u : UserID) (d : Data)
  | markDirty (u : UserID)
  | flushDirty (fault : Option Fault)

namespace PlayerStore

variable (enginePlayerSnapshot : Data → Engine) (gamePlayerStateSnapshot : Data → State)

def markPlayer (players : UserID → Option Data) (f : PlayerFlusher UserID Engine State)
    (u : UserID) :
    PlayerFlusher UserID Engine State :=
  match players u with
  | none => f
  | some p => f.mark u (enginePlayerSnapshot p) (gamePlayerStateSnapshot p)

def markAll (s : PlayerStore UserID Data Engine State) : PlayerFlusher UserID Engine State :=
  s.dirty.foldl (markPlayer enginePlayerSnapshot gamePlayerStateSnapshot s.players) s.flusher

def flushDirty (s : PlayerStore UserID Data Engine State) (fault : Option Fault) :
    PlayerStore UserID Data Engine State × Except Fault ℕ :=
  if s.dirty.isEmpty then (s, .ok 0)
  else
    let (flusher, db, result) :=
      (s.markAll enginePlayerSnapshot gamePlayerStateSnapshot).flush s.db fault
    ({ s with dirty := [], flusher := flusher, db := db, nodup := nodup_nil }, result)

/-- One call at a time; every mutated player is marked before the next flush. -/
def step (s : PlayerStore UserID Data Engine State) :
    StoreEvent UserID Data → Option (PlayerStore UserID Data Engine State)
  | .bind u d =>
    -- a player who is not cached yet gets a fresh entry, which is dirty at once
    match s.players u with
    | some _ => some s
    | none => some { s with
        players := update s.players u (some d)
        dirty := addDirty s.dirty u
        mutated := u :: s.mutated
        nodup := nodup_addDirty s.nodup u }
  | .mutate u d =>
    match s.players u with
    | none => none
    | some _ => some { s with
        players := update s.players u (some d)
        mutated := u :: s.mutated
        unmarked := u :: s.unmarked }
  | .markDirty u =>
    match s.players u with
    | none => some s
    | some _ => some { s with
        dirty := addDirty s.dirty u
        unmarked := s.unmarked.filter (· ≠ u)
        nodup := nodup_addDirty s.nodup u }
  | .flushDirty fault =>
    if s.unmarked.isEmpty then
      some (s.flushDirty enginePlayerSnapshot gamePlayerStateSnapshot fault).1
    else none

end PlayerStore

structure PlayerFlusher.Holds (enginePlayerSnapshot : Data → Engine)
    (gamePlayerStateSnapshot : Data → State) (f : PlayerFlusher UserID Engine State) (u : UserID)
    (d : Data) : Prop where
  engine : f.dirtyEngine.lookup u = some (enginePlayerSnapshot d)
  gameState : f.dirtyGameState.lookup u = some (gamePlayerStateSnapshot d)

structure PlayerFlusher.Lacks (f : PlayerFlusher UserID Engine State) (u : UserID) : Prop where
  engine : f.dirtyEngine.lookup u = none
  gameState : f.dirtyGameState.lookup u = none

structure Database.Stores (enginePlayerSnapshot : Data → Engine)
    (gamePlayerStateSnapshot : Data → State) (db : Database UserID Engine State) (u : UserID)
    (d : Data) : Prop where
  engine : db.engine u = some (enginePlayerSnapshot d)
  gameState : db.gameState u = some (gamePlayerStateSnapshot d)

namespace PlayerStore

section Flush

variable (enginePlayerSnapshot : Data → Engine) (gamePlayerStateSnapshot : Data → State)

/-- The state `d` of a player is yet to be marked, or dirty, or waits in the flusher, or is
stored. -/
def Tracked (s : PlayerStore UserID Data Engine State) (u : UserID) (d : Data) : Prop :=
  u ∈ s.unmarked ∨ u ∈ s.dirty ∨ s.flusher.Holds enginePlayerSnapshot gamePlayerStateSnapshot u d ∨
    s.flusher.Lacks u ∧ s.db.Stores enginePlayerSnapshot gamePlayerStateSnapshot u d

variable {enginePlayerSnapshot gamePlayerStateSnapshot}
    {s s' : PlayerStore UserID Data Engine State}
  {f : PlayerFlusher UserID Engine State} {db : Database UserID Engine State}
    {u v : UserID} {d : Data}
  {players : UserID → Option Data}

lemma keyed_markPlayer (players : UserID → Option Data) :
    Keyed (markPlayer enginePlayerSnapshot gamePlayerStateSnapshot players) id
      (fun f : PlayerFlusher UserID Engine State => fun u =>
        (f.dirtyEngine.lookup u, f.dirtyGameState.lookup u))
      (fun u old => match players u with
        | none => old
        | some p => (some (enginePlayerSnapshot p), some (gamePlayerStateSnapshot p))) where
  frame {f v u} hne := by
    unfold markPlayer
    split
    · rfl
    · have hne' : u ≠ v := hne
      simp only [PlayerFlusher.mark, lookup_insert_ne hne']
  effect {f u} := by
    simp only [id, markPlayer]
    split
    · rfl
    · simp only [PlayerFlusher.mark, lookup_insert]

lemma markAll_of_notMem (enginePlayerSnapshot : Data → Engine)
    (gamePlayerStateSnapshot : Data → State) (hu : u ∉ s.dirty) :
    ((s.markAll enginePlayerSnapshot gamePlayerStateSnapshot).dirtyEngine.lookup u,
        (s.markAll enginePlayerSnapshot gamePlayerStateSnapshot).dirtyGameState.lookup u) =
      (s.flusher.dirtyEngine.lookup u, s.flusher.dirtyGameState.lookup u) :=
  (keyed_markPlayer s.players).foldl_of_notMem (by rwa [map_id])

lemma markAll_of_mem (hu : u ∈ s.dirty) (hd : s.players u = some d) :
    (s.markAll enginePlayerSnapshot gamePlayerStateSnapshot).Holds
      enginePlayerSnapshot gamePlayerStateSnapshot u d := by
  have hpair : ((s.markAll enginePlayerSnapshot gamePlayerStateSnapshot).dirtyEngine.lookup u,
      (s.markAll enginePlayerSnapshot gamePlayerStateSnapshot).dirtyGameState.lookup u) =
        match s.players u with
        | none => (s.flusher.dirtyEngine.lookup u, s.flusher.dirtyGameState.lookup u)
        | some p => (some (enginePlayerSnapshot p), some (gamePlayerStateSnapshot p)) :=
    (keyed_markPlayer s.players).foldl_of_mem (by rw [map_id]; exact s.nodup) hu
  rw [hd] at hpair
  exact ⟨congrArg Prod.fst hpair, congrArg Prod.snd hpair⟩

lemma Tracked.markAll (h : s.Tracked enginePlayerSnapshot gamePlayerStateSnapshot u d)
    (hd : s.players u = some d) (hunmarked : s.unmarked = []) :
    (s.markAll enginePlayerSnapshot gamePlayerStateSnapshot).Holds
        enginePlayerSnapshot gamePlayerStateSnapshot u d ∨
      (s.markAll enginePlayerSnapshot gamePlayerStateSnapshot).Lacks u ∧
        s.db.Stores enginePlayerSnapshot gamePlayerStateSnapshot u d := by
  by_cases hu : u ∈ s.dirty
  · exact .inl (markAll_of_mem hu hd)
  have hpair := markAll_of_notMem enginePlayerSnapshot gamePlayerStateSnapshot hu
  rw [Prod.mk.injEq] at hpair
  rcases h with hmem | hmem | hholds | ⟨hlacks, hstores⟩
  · rw [hunmarked] at hmem
    cases hmem
  · exact absurd hmem hu
  · exact .inl ⟨hpair.1.trans hholds.engine, hpair.2.trans hholds.gameState⟩
  · exact .inr ⟨⟨hpair.1.trans hlacks.engine, hpair.2.trans hlacks.gameState⟩, hstores⟩

lemma holds_restoreDirty (h : f.Holds enginePlayerSnapshot gamePlayerStateSnapshot u d) :
    (PlayerFlusher.empty.restoreDirty f.dirtyEngine f.dirtyGameState).Holds
      enginePlayerSnapshot gamePlayerStateSnapshot u d := by
  refine ⟨?_, ?_⟩
  · exact (lookup_union_right (notMem_empty u)).trans h.engine
  · exact (lookup_union_right (notMem_empty u)).trans h.gameState

lemma lacks_restoreDirty (h : f.Lacks u) :
    (PlayerFlusher.empty.restoreDirty f.dirtyEngine f.dirtyGameState :
      PlayerFlusher UserID Engine State).Lacks u := by
  refine ⟨?_, ?_⟩
  · exact (lookup_union_right (notMem_empty u)).trans h.engine
  · exact (lookup_union_right (notMem_empty u)).trans h.gameState

lemma isEmpty_of_holds (h : f.Holds enginePlayerSnapshot gamePlayerStateSnapshot u d) :
    f.dirtyEngine.entries.isEmpty = false := by
  have hengine := h.engine
  unfold AList.lookup at hengine
  cases hentries : f.dirtyEngine.entries with
  | nil =>
    rw [hentries] at hengine
    cases hengine
  | cons e es => rfl

lemma flush_spec (fault : Option Fault)
    (h : f.Holds enginePlayerSnapshot gamePlayerStateSnapshot u d ∨
      f.Lacks u ∧ db.Stores enginePlayerSnapshot gamePlayerStateSnapshot u d) :
    ((f.flush db fault).1.Holds enginePlayerSnapshot gamePlayerStateSnapshot u d ∧ fault ≠ none ∨
      (f.flush db fault).1.Lacks u ∧
        (f.flush db fault).2.1.Stores enginePlayerSnapshot gamePlayerStateSnapshot u d) := by
  unfold PlayerFlusher.flush
  rcases h with hholds | ⟨hlacks, hstores⟩
  · rw [isEmpty_of_holds hholds]
    cases fault with
    | some e => exact .inl ⟨holds_restoreDirty hholds, Option.some_ne_none e⟩
    | none =>
      refine .inr ⟨⟨rfl, rfl⟩, ?_, ?_⟩
      · simp [saveBatch, hholds.engine]
      · simp [saveBatch, hholds.gameState]
  · split
    · exact .inr ⟨hlacks, hstores⟩
    cases fault with
    | some e => exact .inr ⟨lacks_restoreDirty hlacks, hstores⟩
    | none =>
      refine .inr ⟨⟨rfl, rfl⟩, ?_, ?_⟩
      · simp [saveBatch, hlacks.engine, hstores.engine]
      · simp [saveBatch, hlacks.gameState, hstores.gameState]

lemma Tracked.flushDirty (h : s.Tracked enginePlayerSnapshot gamePlayerStateSnapshot u d)
    (hd : s.players u = some d) (hunmarked : s.unmarked = []) (fault : Option Fault) :
    (s.flushDirty enginePlayerSnapshot gamePlayerStateSnapshot fault).1.Tracked
      enginePlayerSnapshot gamePlayerStateSnapshot u d := by
  unfold PlayerStore.flushDirty
  split
  · exact h
  · rcases flush_spec fault (h.markAll hd hunmarked) with ⟨hholds, -⟩ | hstores
    · exact .inr (.inr (.inl hholds))
    · exact .inr (.inr (.inr hstores))

end Flush

section Runs

variable (enginePlayerSnapshot : Data → Engine) (gamePlayerStateSnapshot : Data → State)

/-- Every player mutated so far is cached, and their state is tracked. -/
def AllTracked (s : PlayerStore UserID Data Engine State) : Prop :=
  ∀ u ∈ s.mutated, ∃ d, s.players u = some d ∧
    s.Tracked enginePlayerSnapshot gamePlayerStateSnapshot u d

def NotOnlyFlusher (s : PlayerStore UserID Data Engine State) : Prop :=
  s.dirty ≠ [] ∨ s.flusher.dirtyEngine.entries = []

/-- Nothing is dirty yet. -/
structure Loaded (s : PlayerStore UserID Data Engine State) : Prop where
  dirty : s.dirty = []
  flusher : s.flusher = PlayerFlusher.empty
  mutated : s.mutated = []
  unmarked : s.unmarked = []

variable {enginePlayerSnapshot gamePlayerStateSnapshot}
  {start s s' : PlayerStore UserID Data Engine State}

lemma allTracked_step {e : StoreEvent UserID Data}
    (h : s.AllTracked enginePlayerSnapshot gamePlayerStateSnapshot)
    (hstep : Steps (step enginePlayerSnapshot gamePlayerStateSnapshot) s e s') :
    s'.AllTracked enginePlayerSnapshot gamePlayerStateSnapshot := by
  intro u hu
  cases e with
  | bind v d =>
    simp only [Steps, step] at hstep
    split at hstep
    · cases hstep
      exact h u hu
    next hnone =>
    cases hstep
    by_cases huv : u = v
    · subst huv
      exact ⟨d, update_self .., .inr (.inl (mem_addDirty.mpr (.inl rfl)))⟩
    obtain ⟨d', hd', htracked⟩ := h u ((mem_cons.mp hu).resolve_left huv)
    refine ⟨d', (update_of_ne huv ..).trans hd', ?_⟩
    rcases htracked with h | h | h
    · exact .inl h
    · exact .inr (.inl (mem_addDirty.mpr (.inr h)))
    · exact .inr (.inr h)
  | mutate v d =>
    simp only [Steps, step] at hstep
    split at hstep
    · cases hstep
    cases hstep
    by_cases huv : u = v
    · subst huv
      exact ⟨d, update_self .., .inl mem_cons_self⟩
    obtain ⟨d', hd', htracked⟩ := h u ((mem_cons.mp hu).resolve_left huv)
    refine ⟨d', (update_of_ne huv ..).trans hd', ?_⟩
    rcases htracked with h | h
    · exact .inl (mem_cons_of_mem _ h)
    · exact .inr h
  | markDirty v =>
    simp only [Steps, step] at hstep
    split at hstep
    · cases hstep
      exact h u hu
    cases hstep
    obtain ⟨d, hd, htracked⟩ := h u hu
    refine ⟨d, hd, ?_⟩
    by_cases huv : u = v
    · exact .inr (.inl (mem_addDirty.mpr (.inl huv)))
    rcases htracked with h | h | h
    · exact .inl (mem_filter.mpr ⟨h, by simpa using huv⟩)
    · exact .inr (.inl (mem_addDirty.mpr (.inr h)))
    · exact .inr (.inr h)
  | flushDirty fault =>
    simp only [Steps, step] at hstep
    split at hstep
    · next hunmarked =>
      cases hstep
      have hmutated : u ∈ s.mutated := by
        unfold flushDirty at hu
        split at hu
        · exact hu
        · exact hu
      obtain ⟨d, hd, htracked⟩ := h u hmutated
      refine ⟨d, ?_, htracked.flushDirty hd (isEmpty_iff.mp hunmarked) fault⟩
      unfold flushDirty
      split
      · exact hd
      · exact hd
    · cases hstep

/-- **Saving succeeds in the end.** Whatever failed before, after a flush without a fault the rows
of every player mutated so far are the snapshots of the player's current state, unless the flush
came when only the flusher had something left. -/
theorem flush_persists (hstart : start.Loaded)
    (hrun : Run (Steps (step enginePlayerSnapshot gamePlayerStateSnapshot)) Always start s)
    (hflush : s.NotOnlyFlusher)
    (hstep : Steps (step enginePlayerSnapshot gamePlayerStateSnapshot) s (.flushDirty none) s') :
    ∀ u ∈ s'.mutated, ∃ d, s'.players u = some d ∧
      s'.db.Stores enginePlayerSnapshot gamePlayerStateSnapshot u d := by
  have h₀ : start.AllTracked enginePlayerSnapshot gamePlayerStateSnapshot := fun u hu => by
    rw [hstart.mutated] at hu
    cases hu
  have htracked := hrun.invariant
    (I := fun s => s.AllTracked enginePlayerSnapshot gamePlayerStateSnapshot) h₀
    fun h _ hstep => allTracked_step h hstep
  simp only [Steps, step] at hstep
  split at hstep
  · next hunmarked =>
    rw [List.isEmpty_iff] at hunmarked
    cases hstep
    unfold flushDirty
    split
    · next hclean =>
      -- no player is dirty and the flusher is empty, so everything is stored already
      rw [List.isEmpty_iff] at hclean
      have hempty : s.flusher.dirtyEngine.entries = [] := hflush.resolve_left fun hne => hne hclean
      intro u hu
      obtain ⟨d, hd, hmem | hmem | hholds | ⟨-, hstores⟩⟩ := htracked u hu
      · rw [hunmarked] at hmem
        cases hmem
      · rw [hclean] at hmem
        cases hmem
      · have hfull := isEmpty_of_holds hholds
        rw [hempty] at hfull
        cases hfull
      · exact ⟨d, hd, hstores⟩
    · intro u hu
      obtain ⟨d, hd, htr⟩ := htracked u hu
      rcases flush_spec none (htr.markAll hd hunmarked) with ⟨-, hne⟩ | ⟨-, hstores⟩
      · exact absurd rfl hne
      · exact ⟨d, hd, hstores⟩
  · cases hstep

end Runs

def onePlayer : PlayerStore ℕ (ℕ × ℕ) ℕ ℕ where
  players u := if u = 1 then some (0, 0) else none
  dirty := []
  flusher := PlayerFlusher.empty
  db := ⟨fun u => if u = 1 then some 0 else none, fun u => if u = 1 then some 0 else none⟩
  mutated := []
  unmarked := []
  nodup := nodup_nil

theorem flush_persists_retry : ∃ s s',
    Run (Steps (step Prod.fst Prod.snd)) Always onePlayer s ∧
      Steps (step Prod.fst Prod.snd) s (.flushDirty none) s' ∧ s'.mutated = [1, 1] ∧
      ∀ u ∈ s'.mutated, ∃ d, s'.players u = some d ∧ s'.db.Stores Prod.fst Prod.snd u d := by
  obtain ⟨s, hrun, hdirty, hunmarked, hmutated⟩ := exists_run (s := onePlayer)
    (step Prod.fst Prod.snd) Always
    (fun s => s.dirty = [1] ∧ s.unmarked.isEmpty ∧
      (s.flushDirty Prod.fst Prod.snd none).1.mutated = [1, 1])
    [.mutate 1 (5, 6), .markDirty 1, .flushDirty (some .commit), .mutate 1 (7, 8), .markDirty 1]
    (by decide +kernel)
  have hstep : Steps (step Prod.fst Prod.snd) s (.flushDirty none)
      (s.flushDirty Prod.fst Prod.snd none).1 := if_pos hunmarked
  exact ⟨s, _, hrun, hstep, hmutated,
    flush_persists ⟨rfl, rfl, rfl, rfl⟩ hrun (.inl (by rw [hdirty]; simp)) hstep⟩

/-- **The early exit loses a retry**: after a failed commit with nothing marked since, a flush with
a working database saves nothing. -/
theorem failed_batch_not_retried : ∃ s s',
    Run (Steps (step Prod.fst Prod.snd)) Always onePlayer s ∧
      Steps (step Prod.fst Prod.snd) s (.flushDirty none) s' ∧ 1 ∈ s'.mutated ∧
      s'.players 1 = some (5, 6) ∧ s'.db.engine 1 = some 0 ∧ s'.db.gameState 1 = some 0 := by
  obtain ⟨s, hrun, hunmarked, hresult⟩ := exists_run (s := onePlayer)
    (step Prod.fst Prod.snd) Always
    (fun s => s.unmarked.isEmpty ∧
      1 ∈ (s.flushDirty Prod.fst Prod.snd none).1.mutated ∧
      (s.flushDirty Prod.fst Prod.snd none).1.players 1 = some (5, 6) ∧
      (s.flushDirty Prod.fst Prod.snd none).1.db.engine 1 = some 0 ∧
      (s.flushDirty Prod.fst Prod.snd none).1.db.gameState 1 = some 0)
    [.mutate 1 (5, 6), .markDirty 1, .flushDirty (some .commit)] (by decide +kernel)
  exact ⟨s, _, hrun, if_pos hunmarked, hresult⟩

end PlayerStore

end Mmokit.Game
