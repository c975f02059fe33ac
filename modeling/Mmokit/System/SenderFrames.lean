/-
The frames of the sender, read off its entries.

As in `FrameContents`, everything that a frame says about an entity comes from one entry.
-/
import Mmokit.System.FrameDelivery
import Mmokit.System.ReplicationSender

namespace Mmokit.Replication

open ConnState Entry

variable {S : Type*}

def ViewerTick.plain (i : ViewerTick S) : TickInput S where
  tick := i.tick
  generation := i.generation.getD 0
  viewerNetID := i.viewer.map Prod.fst
  results := i.results
  removedIDs := i.removedIDs
  disposition := i.result.disposition

structure ConnState.SameStream (conn conn' : ConnState) : Prop where
  streamEpoch : conn'.streamEpoch = conn.streamEpoch
  pendingRemoved : conn'.pendingRemoved = conn.pendingRemoved
  lastVisible : conn'.lastVisible = conn.lastVisible
  pending : conn'.pending = conn.pending
  nextSeq : conn'.nextSeq = conn.nextSeq

lemma sameStream_commit (txn : List Staged) (conn : ConnState) :
    conn.SameStream (txn.foldl commitStaged conn) := by
  have hstep (conn : ConnState) (x : Staged) : conn.SameStream (conn.commitStaged x) := by
    unfold commitStaged
    split <;> exact ⟨rfl, rfl, rfl, rfl, rfl⟩
  exact ⟨foldl_keeps _ (fun c x => (hstep c x).streamEpoch) txn conn,
    foldl_keeps _ (fun c x => (hstep c x).pendingRemoved) txn conn,
    foldl_keeps _ (fun c x => (hstep c x).lastVisible) txn conn,
    foldl_keeps _ (fun c x => (hstep c x).pending) txn conn,
    foldl_keeps _ (fun c x => (hstep c x).nextSeq) txn conn⟩

lemma sameStream_retain (txn : List Staged) (conn : ConnState) :
    conn.SameStream (txn.foldl retainStaged conn) := by
  have hstep (conn : ConnState) (x : Staged) : conn.SameStream (conn.retainStaged x) := by
    unfold retainStaged
    split <;> exact ⟨rfl, rfl, rfl, rfl, rfl⟩
  exact ⟨foldl_keeps _ (fun c x => (hstep c x).streamEpoch) txn conn,
    foldl_keeps _ (fun c x => (hstep c x).pendingRemoved) txn conn,
    foldl_keeps _ (fun c x => (hstep c x).lastVisible) txn conn,
    foldl_keeps _ (fun c x => (hstep c x).pending) txn conn,
    foldl_keeps _ (fun c x => (hstep c x).nextSeq) txn conn⟩

section Visible

variable (cfg : SenderConfig S)

def look (seen : List (NetID × List UInt8)) (c : Candidate S) : List (NetID × List UInt8) :=
  match admitted cfg.toReplicationConfig (seen.map Prod.fst) c with
  | none => seen
  | some rep => seen ++ [(c.netID, rep.snapshot c.state)]

def visibleTo (i : ViewerTick S) : List (NetID × List UInt8) := i.results.foldl (look cfg) []

end Visible

namespace Sender

section Entries

variable (cfg : SenderConfig S) (s : Sender) (i : ViewerTick S)

def outcomeOf (rep : EntityReplicator S) (c : Candidate S) : Outcome :=
  if s.isDormant cfg (s.building i) rep c then .unchanged
  else encodeEntity (s.building i) rep c (s.building i).forceFresh
    (isKeyframe cfg.toReplicationConfig i.tick) i.tick

def entries : List (Entry S) :=
  i.results.foldl (collect cfg.toReplicationConfig (s.outcomeOf cfg i)) []

end Entries

variable {cfg : SenderConfig S} {s : Sender} {i : ViewerTick S}

lemma adoptViewer_cases : s.adoptViewer i = s ∨ ∃ n epoch, i.viewer = some (n, epoch) ∧
    s.adopts i = true ∧
      s.adoptViewer i = { s with streamEpoch := epoch, hasStreamEpoch := true } := by
  unfold adoptViewer
  split
  · rename_i n epoch hviewer
    split
    · exact .inr ⟨n, epoch, hviewer, by assumption, rfl⟩
    · exact .inl rfl
  · exact .inl rfl

@[simp] lemma adoptViewer_forceFresh : (s.adoptViewer i).forceFresh = s.forceFresh := by
  rcases adoptViewer_cases with h | ⟨n, epoch, -, -, h⟩ <;> rw [h]

@[simp] lemma adoptViewer_lastVisible : (s.adoptViewer i).lastVisible = s.lastVisible := by
  rcases adoptViewer_cases with h | ⟨n, epoch, -, -, h⟩ <;> rw [h]

@[simp] lemma adoptViewer_pending : (s.adoptViewer i).pending = s.pending := by
  rcases adoptViewer_cases with h | ⟨n, epoch, -, -, h⟩ <;> rw [h]

@[simp] lemma adoptViewer_pendingRemoved : (s.adoptViewer i).pendingRemoved = s.pendingRemoved := by
  rcases adoptViewer_cases with h | ⟨n, epoch, -, -, h⟩ <;> rw [h]

@[simp] lemma adoptViewer_mode : (s.adoptViewer i).mode = s.mode := by
  rcases adoptViewer_cases with h | ⟨n, epoch, -, -, h⟩ <;> rw [h]

lemma resolveStreamGeneration_eq (generation : Option UInt32) :
    (∃ x y e, s.resolveStreamGeneration generation =
        { s with streamEpoch := e, hasStreamEpoch := x, hasExplicitGeneration := y }) ∨
      ∃ g, s.resolveStreamGeneration generation =
        { mode := s.mode, streamEpoch := g, hasStreamEpoch := true,
          hasExplicitGeneration := true } := by
  unfold resolveStreamGeneration
  cases generation with
  | none => exact .inl ⟨_, _, _, rfl⟩
  | some g =>
    dsimp only
    split
    · split
      · exact .inr ⟨_, rfl⟩
      · exact .inl ⟨_, _, _, rfl⟩
    split
    · exact .inl ⟨_, _, _, rfl⟩
    · split
      · exact .inl ⟨_, _, _, rfl⟩
      · exact .inr ⟨_, rfl⟩

structure Renewed (s r : Sender) (g : UInt32) : Prop where
  epoch : r.streamEpoch = g
  other : g ≠ s.streamEpoch
  later : s.hasExplicitGeneration = false ∨ streamGenerationAfter g s.streamEpoch = true
  lastVisible : r.lastVisible = none
  pending : r.pending = none
  mode : r.mode = s.mode

/-- **The generation of a tick**: the stream stays as it is, or is another one, or the generation
comes when frames were sent and the sequence counter is zero. -/
lemma resolveStreamGeneration_cases (generation : Option UInt32) :
    (∃ x y, s.resolveStreamGeneration generation =
        { s with hasStreamEpoch := x, hasExplicitGeneration := y } ∧
          (generation = none → x = s.hasStreamEpoch)) ∨
      (∃ g, generation = some g ∧ s.Renewed (s.resolveStreamGeneration generation) g) ∨
      (s.hasExplicitGeneration = false ∧ s.nextSeq = 0 ∧
        (s.pending ≠ none ∨ s.lastVisible ≠ none) ∧ ∃ g, generation = some g ∧
          g ≠ s.streamEpoch) := by
  unfold resolveStreamGeneration
  cases generation with
  | none => exact .inl ⟨s.hasStreamEpoch, s.hasExplicitGeneration, rfl, fun _ => rfl⟩
  | some g =>
    dsimp only
    split
    · rename_i hexplicit
      rw [Bool.not_eq_true'] at hexplicit
      split
      · rename_i hother
        exact .inr (.inl ⟨g, rfl, rfl, Ne.symm hother.2, .inl hexplicit, rfl, rfl, rfl⟩)
      rename_i hsame
      by_cases heq : s.streamEpoch = g
      · -- the generation is the epoch that the stream has anyway
        subst heq
        exact .inl ⟨true, true, rfl, by simp⟩
      have hzero : s.nextSeq = 0 := by
        by_contra hne
        exact hsame ⟨hne, heq⟩
      by_cases hnew : s.pending = none ∧ s.lastVisible = none
      · exact .inr (.inl ⟨g, rfl, rfl, Ne.symm heq, .inl hexplicit, hnew.2, hnew.1, rfl⟩)
      · exact .inr (.inr ⟨hexplicit, hzero, by tauto, g, rfl, Ne.symm heq⟩)
    · split
      · exact .inl ⟨s.hasStreamEpoch, s.hasExplicitGeneration, rfl, fun _ => rfl⟩
      rename_i hother
      split
      · exact .inl ⟨s.hasStreamEpoch, s.hasExplicitGeneration, rfl, fun _ => rfl⟩
      · rename_i hlater
        refine .inr (.inl ⟨g, rfl, rfl, hother, .inr ?_, rfl, rfl, rfl⟩)
        simpa using hlater

lemma replicateEntity_toBuild {b : SenderBuild} {es : List (Entry S)}
    (h : b.toBuild = .ofEntries es)
    (c : Candidate S) :
    (s.replicateEntity cfg (s.building i) i.tick b c).toBuild =
      .ofEntries (collect cfg.toReplicationConfig (s.outcomeOf cfg i) es c) := by
  have hvisible : b.visible = es.map netID := congrArg Build.visible h
  unfold replicateEntity collect
  rw [hvisible]
  cases admitted cfg.toReplicationConfig (es.map netID) c with
  | none => exact h
  | some rep =>
    dsimp only
    rw [Build.ofEntries_concat]
    unfold outcomeOf
    split <;> simp [h, Build.addOutcome, netID]

lemma build_eq : (s.build cfg i).toBuild = .ofEntries (s.entries cfg i) := by
  have hloop (cs : List (Candidate S)) (b : SenderBuild) (es : List (Entry S))
      (h : b.toBuild = .ofEntries es) :
      (cs.foldl (s.replicateEntity cfg (s.building i) i.tick) b).toBuild =
        .ofEntries (cs.foldl (collect cfg.toReplicationConfig (s.outcomeOf cfg i)) es) := by
    induction cs generalizing b es with
    | nil => exact h
    | cons c cs ih => exact ih _ _ (replicateEntity_toBuild h c)
  exact hloop i.results {} [] rfl

lemma entries_nodup : ((s.entries cfg i).map netID).Nodup :=
  (collect_spec cfg.toReplicationConfig (s.outcomeOf cfg i) i.results).1

lemma entries_cases {e : Entry S} (he : e ∈ s.entries cfg i) :
    (s.isDormant cfg (s.building i) e.rep e.candidate = true ∧ e.outcome = .unchanged) ∨
      e.Valid cfg.toReplicationConfig (s.building i) i.plain := by
  obtain ⟨hmem, hrep, hout⟩ :=
    (collect_spec cfg.toReplicationConfig (s.outcomeOf cfg i) i.results).2 e he
  unfold outcomeOf at hout
  split at hout
  · exact .inl ⟨by assumption, hout⟩
  · exact .inr ⟨hmem, hrep, hout⟩

lemma own_of_mem_entries {e : Entry S} (he : e ∈ s.entries cfg i) : e.Own := by
  rcases entries_cases he with ⟨-, hout⟩ | hvalid
  · constructor <;> simp [full, delta, staged, hout]
  · exact hvalid.own

lemma entries_eq_visibleTo :
    (s.entries cfg i).map (fun e => (e.netID, e.snapshot)) = visibleTo cfg i := by
  have hloop (cs : List (Candidate S)) (es : List (Entry S)) :
      (cs.foldl (collect cfg.toReplicationConfig (s.outcomeOf cfg i)) es).map
          (fun e => (e.netID, e.snapshot)) =
        cs.foldl (look cfg) (es.map fun e => (e.netID, e.snapshot)) := by
    induction cs generalizing es with
    | nil => rfl
    | cons c cs ih =>
      rw [List.foldl_cons, List.foldl_cons, ih]
      congr 1
      have hids : (es.map fun e => (e.netID, e.snapshot)).map Prod.fst = es.map netID := by
        simp [Function.comp_def]
      unfold collect look
      rw [hids]
      cases admitted cfg.toReplicationConfig (es.map netID) c with
      | none => rfl
      | some rep => simp [netID, snapshot]
  exact hloop i.results []

lemma build_visible : (s.build cfg i).visible = (s.entries cfg i).map netID :=
  congrArg Build.visible build_eq

lemma build_visible_eq : (s.build cfg i).visible = (visibleTo cfg i).map Prod.fst := by
  rw [build_visible, ← entries_eq_visibleTo (s := s), List.map_map]
  rfl

lemma mem_removed {n : NetID} : n ∈ (s.frame cfg i).removed ↔
    s.wasVisible n = true ∧ n ∉ (s.build cfg i).visible ∧
      (n ∈ i.removedIDs ∨ s.pendingRemoved n = true) := by
  simp [frame, left, departed, wasVisible]
  tauto

lemma mem_exited {n : NetID} : n ∈ (s.frame cfg i).exited ↔
    s.wasVisible n = true ∧ n ∉ (s.build cfg i).visible ∧
      (n ∉ i.removedIDs ∧ s.pendingRemoved n = false) ∧ n ≠ s.self i := by
  simp [frame, left, departed, wasVisible]
  tauto

lemma carries_frame : Carries (s.frame cfg i) (s.entries cfg i) where
  full := congrArg Build.full build_eq
  deltas := congrArg Build.deltas build_eq
  nodup := entries_nodup
  own _ he := own_of_mem_entries he
  stays e he := by
    have hvisible : e.netID ∈ (s.build cfg i).visible := by
      rw [build_visible]
      exact List.mem_map_of_mem he
    rw [mem_removed, mem_exited]
    exact ⟨fun h => h.2.1 hvisible, fun h => h.2.1 hvisible⟩

lemma needsFull_of_fresh (h : (s.frame cfg i).fresh = true) (n : NetID) (epoch : Epoch) :
    (s.building i).needsFull (s.building i).forceFresh n epoch = true := by
  rcases (Bool.or_eq_true _ _).mp h with hfresh | hnone
  · have hforce : (s.building i).forceFresh = true := hfresh
    simp [needsFull, hforce]
  -- nothing is committed, so nothing was visible
  have hvisible : (s.building i).lastVisible = none := by
    simpa [building] using hnone
  simp [needsFull, wasVisible, hvisible]

lemma full_of_fresh (h : (s.frame cfg i).fresh = true) {e : Entry S} (he : e ∈ s.entries cfg i) :
    ∃ w, e.full = some (fullPayload e.rep e.candidate w) ∧ e.delta = none := by
  have hneeds := needsFull_of_fresh h e.candidate.netID e.candidate.epoch
  rcases entries_cases he with ⟨hdormant, -⟩ | hvalid
  · simp [isDormant, hneeds] at hdormant
  rcases encodeEntity_cases (s.building i) e.rep e.candidate (s.building i).forceFresh
    (isKeyframe cfg.toReplicationConfig i.tick) i.tick
    with ⟨-, hfalse, -⟩ | ⟨-, hfalse⟩ | ⟨w, hout⟩ | ⟨-, hfalse, -⟩
  · exact absurd (hneeds.symm.trans hfalse) (by simp)
  · exact absurd (hneeds.symm.trans hfalse) (by simp)
  · have hout' : e.outcome = _ := hvalid.outcome.trans hout
    exact ⟨w, by simp [full, hout'], by simp [delta, hout']⟩
  · exact absurd (hneeds.symm.trans hfalse) (by simp)

lemma selfContained_of_fresh (h : (s.frame cfg i).fresh = true) :
    (s.frame cfg i).deltas = [] ∧
      (s.frame cfg i).full.map FullPayload.netID = (s.attempt cfg i).visible := by
  constructor
  · rw [carries_frame.deltas, List.filterMap_eq_nil_iff]
    intro e he
    obtain ⟨w, -, hdelta⟩ := full_of_fresh h he
    exact hdelta
  · change _ = (s.build cfg i).visible
    rw [carries_frame.full, build_visible, List.map_filterMap, ← List.filterMap_eq_map]
    refine List.filterMap_congr fun e he => ?_
    obtain ⟨w, hfull, -⟩ := full_of_fresh h he
    simp [hfull, fullPayload, netID]

end Sender

end Mmokit.Replication
