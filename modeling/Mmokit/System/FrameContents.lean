/-
What a frame contains.

The payloads of a frame are read off one list: the entries that were admitted, each with what the
frame does with it. An entity is admitted once, so everything a frame says about an entity comes
from its entry.
-/
import Mathlib.Data.List.Induction
import Mmokit.System.DeltaDecoder

namespace Mmokit.Replication

open List

/-- An entity that was admitted, with what the frame does with it. -/
structure Entry (S : Type*) where
  candidate : Candidate S
  rep : EntityReplicator S
  outcome : Outcome

namespace Entry

variable {S : Type*} (e : Entry S)

def netID : NetID := e.candidate.netID

def snapshot : List UInt8 := e.rep.snapshot e.candidate.state

def full : Option FullPayload :=
  match e.outcome with
  | .full p _ => some p
  | _ => none

def delta : Option DeltaPayload :=
  match e.outcome with
  | .delta p _ => some p
  | _ => none

def staged : Option Staged :=
  match e.outcome with
  | .full _ s | .delta _ s | .identical s => some s
  | .unchanged | .held => none

end Entry

section Entries

variable {S : Type*} (cfg : ReplicationConfig S) (conn : ConnState)

def addEntry (i : TickInput S) (es : List (Entry S)) (c : Candidate S) : List (Entry S) :=
  match admitted cfg (es.map Entry.netID) c with
  | none => es
  | some rep =>
    es ++ [⟨c, rep, encodeEntity conn rep c conn.forceFresh (isKeyframe cfg i.tick) i.tick⟩]

def visibleEntries (i : TickInput S) : List (Entry S) := i.results.foldl (addEntry cfg conn i) []

def collect (outcome : EntityReplicator S → Candidate S → Outcome) (es : List (Entry S))
    (c : Candidate S) : List (Entry S) :=
  match admitted cfg (es.map Entry.netID) c with
  | none => es
  | some rep => es ++ [⟨c, rep, outcome rep c⟩]

lemma addEntry_eq (i : TickInput S) : addEntry cfg conn i = collect cfg fun rep c =>
    encodeEntity conn rep c conn.forceFresh (isKeyframe cfg i.tick) i.tick := rfl

def Build.ofEntries (es : List (Entry S)) : Build where
  visible := es.map Entry.netID
  full := es.filterMap Entry.full
  deltas := es.filterMap Entry.delta
  txn := es.filterMap Entry.staged
  held := (es.filter fun e => e.outcome = .held).map Entry.netID

lemma Build.ofEntries_concat (es : List (Entry S)) (e : Entry S) :
    Build.ofEntries (es ++ [e]) = { (Build.ofEntries es).addOutcome e.outcome with
      visible := es.map Entry.netID ++ [e.netID]
      held := if e.outcome = .held then (Build.ofEntries es).held ++ [e.netID]
        else (Build.ofEntries es).held } := by
  cases houtcome : e.outcome <;>
    simp [Build.ofEntries, Build.addOutcome, Entry.full, Entry.delta, Entry.staged, houtcome]

lemma replicateEntity_ofEntries (i : TickInput S) (es : List (Entry S)) (c : Candidate S) :
    replicateEntity cfg conn conn.forceFresh (isKeyframe cfg i.tick) i.tick (.ofEntries es) c =
      .ofEntries (addEntry cfg conn i es c) := by
  unfold replicateEntity addEntry
  change (match admitted cfg (es.map Entry.netID) c with | none => _ | some rep => _) = _
  cases admitted cfg (es.map Entry.netID) c with
  | none => rfl
  | some rep =>
    dsimp only
    rw [Build.ofEntries_concat]
    rfl

lemma buildFrame_eq (i : TickInput S) :
    buildFrame cfg conn i = .ofEntries (visibleEntries cfg conn i) := by
  have hloop (cs : List (Candidate S)) (es : List (Entry S)) :
      cs.foldl (replicateEntity cfg conn conn.forceFresh (isKeyframe cfg i.tick) i.tick)
        (.ofEntries es) = .ofEntries (cs.foldl (addEntry cfg conn i) es) := by
    induction cs generalizing es with
    | nil => rfl
    | cons c cs ih => rw [foldl_cons, foldl_cons, replicateEntity_ofEntries, ih]
  exact hloop i.results []

/-- What is known of an entry: its replicator is the one of its kind, and its outcome is that of
`encodeEntity`. -/
structure Entry.Valid (i : TickInput S) (e : Entry S) : Prop where
  mem : e.candidate ∈ i.results
  rep : cfg.replicators e.candidate.kind = some e.rep
  outcome : e.outcome = encodeEntity conn e.rep e.candidate conn.forceFresh
    (isKeyframe cfg i.tick) i.tick

lemma admitted_eq_some {visible : List NetID} {c : Candidate S} {rep : EntityReplicator S}
    (h : admitted cfg visible c = some rep) :
    cfg.replicators c.kind = some rep ∧ c.netID ∉ visible := by
  unfold admitted at h
  split at h
  · exact absurd h (by simp)
  split at h
  · exact absurd h (by simp)
  rename_i hnew
  cases hrep : cfg.replicators c.kind with
  | none => simp [hrep] at h
  | some r =>
    simp only [hrep] at h
    split at h
    · exact ⟨h, by simpa using hnew⟩
    · exact absurd h (by simp)

lemma collect_spec (outcome : EntityReplicator S → Candidate S → Outcome)
    (cs : List (Candidate S)) :
    ((cs.foldl (collect cfg outcome) []).map Entry.netID).Nodup ∧
      ∀ e ∈ cs.foldl (collect cfg outcome) [], e.candidate ∈ cs ∧
        cfg.replicators e.candidate.kind = some e.rep ∧ e.outcome = outcome e.rep e.candidate := by
  induction cs using reverseRecOn with
  | nil => simp
  | append_singleton cs c ih =>
    rw [foldl_append, foldl_cons, foldl_nil]
    obtain ⟨hnodup, hvalid⟩ := ih
    generalize cs.foldl (collect cfg outcome) [] = es at hnodup hvalid ⊢
    have hold : ∀ e ∈ es, e.candidate ∈ cs ++ [c] ∧ cfg.replicators e.candidate.kind = some e.rep ∧
        e.outcome = outcome e.rep e.candidate := by
      intro e he
      obtain ⟨hmem, hrest⟩ := hvalid e he
      exact ⟨mem_append_left _ hmem, hrest⟩
    unfold collect
    cases hadm : admitted cfg (es.map Entry.netID) c with
    | none => exact ⟨hnodup, hold⟩
    | some rep =>
      obtain ⟨hrep, hnew⟩ := admitted_eq_some cfg hadm
      refine ⟨by simpa [nodup_append, hnodup, Entry.netID] using hnew, fun e he => ?_⟩
      rcases mem_append.mp he with he | he
      · exact hold e he
      · rw [mem_singleton] at he
        subst he
        exact ⟨by simp, hrep, rfl⟩

lemma visibleEntries_spec (i : TickInput S) :
    ((visibleEntries cfg conn i).map Entry.netID).Nodup ∧
      ∀ e ∈ visibleEntries cfg conn i, e.Valid cfg conn i := by
  unfold visibleEntries
  rw [addEntry_eq]
  obtain ⟨hnodup, hvalid⟩ := collect_spec cfg
    (fun rep c => encodeEntity conn rep c conn.forceFresh (isKeyframe cfg i.tick) i.tick) i.results
  exact ⟨hnodup, fun e he => ⟨(hvalid e he).1, (hvalid e he).2.1, (hvalid e he).2.2⟩⟩

end Entries

end Mmokit.Replication
