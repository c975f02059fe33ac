/-
The reconciliation gates of the two client SDKs: `pkg/quantize/ts/reconciliation-gate.ts` and
`csharp/Mmokit.Sdk.Core/ReconciliationGate.cs`.

A prediction seed is used only together with the frame that it describes. The TypeScript gate keeps
them in a `Map`, which remembers the order of insertion, the C# gate in a dictionary with a list of
keys.
-/
import Mathlib.Data.List.Nodup
import Mmokit.Client.PredictionBuffer

namespace Mmokit

open Function Prod Machine

structure AckedFrame where
  streamEpoch : UInt32
  tick : UInt32
  processedSequence : UInt32
  deriving DecidableEq

def decimalText (n : UInt32) : List Char := Nat.toDigits 10 n.toNat

def PairKey : Type := List Char
  deriving DecidableEq

def pairKey (f : AckedFrame) : PairKey :=
  decimalText f.streamEpoch ++ ':' ::
    (decimalText f.tick ++ ':' :: decimalText f.processedSequence)

def ofEpoch (epoch : UInt32) (key : PairKey) : Bool := (decimalText epoch ++ [':']).isPrefixOf key

inductive GateReply (TSeed : Type*)
  | observed (fresh : Bool)
  | paired (seed : Option TSeed)
  | allowed (answer : Bool)
  | done

inductive GateCall (TSeed : Type*)
  | observeStream (streamEpoch : UInt32)
  | stageSeed (seed : TSeed)
  | stageFrame (frame : AckedFrame)
  | resetForFreshSnapshot (frame : Option AckedFrame)
  | acceptsSeedStream (streamEpoch : UInt32)
  | canApplySeedImmediately (streamEpoch : UInt32)
  | reset

namespace TypeScript

/-- `ReconciliationGate`, the maps by their entries with the oldest first. The constructor refuses a
bound that is not positive. -/
structure ReconciliationGate (maxStaged : ℕ) (TSeed : Type*) where
  seeds : List (PairKey × TSeed) := []
  frames : List (PairKey × AckedFrame) := []
  currentStreamEpoch : Option UInt32 := none

namespace ReconciliationGate

def evict {T : Type*} (limit : ℕ) : List (PairKey × T) → List (PairKey × T)
  | [] => []
  | oldest :: rest =>
    if limit < (oldest :: rest).length then evict limit rest else oldest :: rest

def addBounded {T : Type*} (map : List (PairKey × T)) (key : PairKey) (value : T) (limit : ℕ) :
    List (PairKey × T) :=
  evict limit (map.filter (·.1 ≠ key) ++ [(key, value)])

variable {maxStaged : ℕ} {TSeed : Type*} (key : TSeed → AckedFrame)
  (g : ReconciliationGate maxStaged TSeed)

def establish (epoch : UInt32) : ReconciliationGate maxStaged TSeed :=
  { g with
    currentStreamEpoch := some epoch, seeds := g.seeds.filter fun entry => ofEpoch epoch entry.1,
    frames := g.frames.filter fun entry => ofEpoch epoch entry.1 }

def observeStream (epoch : UInt32) : Bool × ReconciliationGate maxStaged TSeed :=
  match g.currentStreamEpoch with
  | none => (false, g.establish epoch)
  | some current =>
    if epoch = current then (false, g)
    else if !isForwardSequence current epoch then (false, g)
    else (true, g.establish epoch)

def acceptsSeedStream (epoch : UInt32) : Bool :=
  g.currentStreamEpoch.all fun current => epoch = current || isForwardSequence current epoch

def canApplySeedImmediately (epoch : UInt32) : Bool :=
  g.currentStreamEpoch.all fun current => epoch = current

def resetForFreshSnapshot (frame : Option AckedFrame) : ReconciliationGate maxStaged TSeed :=
  let cleared := { g with seeds := [], frames := [] }
  match frame with
  | none => cleared
  | some frame =>
    match g.seeds.lookup (pairKey frame) with
    | none => cleared
    | some seed => { cleared with seeds := [(pairKey frame, seed)] }

def stageSeed (seed : TSeed) : Option TSeed × ReconciliationGate maxStaged TSeed :=
  if !g.acceptsSeedStream (key seed).streamEpoch then (none, g)
  else if (g.frames.lookup (pairKey (key seed))).isSome then
    (some seed, { g with frames := g.frames.filter (·.1 ≠ pairKey (key seed)) })
  else
    (none, { g with seeds := addBounded g.seeds (pairKey (key seed)) seed maxStaged })

def stageFrame (frame : AckedFrame) : Option TSeed × ReconciliationGate maxStaged TSeed :=
  match g.seeds.lookup (pairKey frame) with
  | some seed => (some seed, { g with seeds := g.seeds.filter (·.1 ≠ pairKey frame) })
  | none => (none, { g with frames := addBounded g.frames (pairKey frame) frame maxStaged })

def step (maxStaged : ℕ) (key : TSeed → AckedFrame) (g : ReconciliationGate maxStaged TSeed) :
    GateCall TSeed → GateReply TSeed × ReconciliationGate maxStaged TSeed
  | .observeStream epoch => ((g.observeStream epoch).map .observed id)
  | .stageSeed seed => (g.stageSeed key seed).map .paired id
  | .stageFrame frame => (g.stageFrame frame).map .paired id
  | .resetForFreshSnapshot frame => (.done, g.resetForFreshSnapshot frame)
  | .acceptsSeedStream epoch => (.allowed (g.acceptsSeedStream epoch), g)
  | .canApplySeedImmediately epoch => (.allowed (g.canApplySeedImmediately epoch), g)
  | .reset => (.done, {})

end ReconciliationGate

end TypeScript

namespace CSharp

/-- A dictionary with the list of its keys: `_seeds` and `_seedOrder`, or `_frames` and
`_frameOrder`. -/
structure Staging (T : Type*) where
  map : PairKey → Option T
  order : List PairKey

namespace Staging

variable {T : Type*} (s : Staging T)

def empty : Staging T := ⟨fun _ => none, []⟩

def removeKeyed (key : PairKey) : Bool × Staging T :=
  if (s.map key).isNone then (false, s)
  else (true, ⟨update s.map key none, s.order.erase key⟩)

def evict (limit : ℕ) (map : PairKey → Option T) : List PairKey → Staging T
  | [] => ⟨map, []⟩
  | oldest :: rest =>
    if limit < (oldest :: rest).length then evict limit (update map oldest none) rest
    else ⟨map, oldest :: rest⟩

def addBounded (key : PairKey) (value : T) (limit : ℕ) : Staging T :=
  let s := (s.removeKeyed key).2
  evict limit (update s.map key (some value)) (s.order ++ [key])

def retain (epoch : UInt32) : Staging T :=
  ⟨fun key => if key ∈ s.order ∧ ofEpoch epoch key = false then none else s.map key,
    s.order.filter (ofEpoch epoch)⟩

end Staging

structure ReconciliationGate (maxStaged : ℕ) (TSeed : Type*) where
  seeds : Staging TSeed := .empty
  frames : Staging AckedFrame := .empty
  currentStreamEpoch : UInt32 := 0
  hasStreamEpoch : Bool := false

namespace ReconciliationGate

variable {maxStaged : ℕ} {TSeed : Type*} (key : TSeed → AckedFrame)
  (g : ReconciliationGate maxStaged TSeed)

def establish (epoch : UInt32) : ReconciliationGate maxStaged TSeed :=
  { g with
    currentStreamEpoch := epoch, hasStreamEpoch := true, seeds := g.seeds.retain epoch,
    frames := g.frames.retain epoch }

def observeStream (epoch : UInt32) : Bool × ReconciliationGate maxStaged TSeed :=
  if !g.hasStreamEpoch then (false, g.establish epoch)
  else if epoch = g.currentStreamEpoch then (false, g)
  else if !isForwardSequence g.currentStreamEpoch epoch then (false, g)
  else (true, g.establish epoch)

def acceptsSeedStream (epoch : UInt32) : Bool :=
  !g.hasStreamEpoch ||
    (epoch = g.currentStreamEpoch || isForwardSequence g.currentStreamEpoch epoch)

def canApplySeedImmediately (epoch : UInt32) : Bool :=
  !g.hasStreamEpoch || epoch = g.currentStreamEpoch

def resetForFreshSnapshot (frame : Option AckedFrame) : ReconciliationGate maxStaged TSeed :=
  let cleared := { g with seeds := .empty, frames := .empty }
  match frame with
  | none => cleared
  | some frame =>
    match g.seeds.map (pairKey frame) with
    | none => cleared
    | some seed =>
      { cleared with
        seeds := ⟨update (fun _ => none) (pairKey frame) (some seed), [pairKey frame]⟩ }

def tryStageSeed (seed : TSeed) : Option TSeed × ReconciliationGate maxStaged TSeed :=
  if !g.acceptsSeedStream (key seed).streamEpoch then (none, g)
  else
    let removed := g.frames.removeKeyed (pairKey (key seed))
    if removed.1 then (some seed, { g with frames := removed.2 })
    else
      (none, { g with
        frames := removed.2, seeds := g.seeds.addBounded (pairKey (key seed)) seed maxStaged })

def tryStageFrame (frame : AckedFrame) : Option TSeed × ReconciliationGate maxStaged TSeed :=
  match g.seeds.map (pairKey frame) with
  | some seed => (some seed, { g with seeds := (g.seeds.removeKeyed (pairKey frame)).2 })
  | none => (none, { g with frames := g.frames.addBounded (pairKey frame) frame maxStaged })

def step (maxStaged : ℕ) (key : TSeed → AckedFrame) (g : ReconciliationGate maxStaged TSeed) :
    GateCall TSeed → GateReply TSeed × ReconciliationGate maxStaged TSeed
  | .observeStream epoch => ((g.observeStream epoch).map .observed id)
  | .stageSeed seed => (g.tryStageSeed key seed).map .paired id
  | .stageFrame frame => (g.tryStageFrame frame).map .paired id
  | .resetForFreshSnapshot frame => (.done, g.resetForFreshSnapshot frame)
  | .acceptsSeedStream epoch => (.allowed (g.acceptsSeedStream epoch), g)
  | .canApplySeedImmediately epoch => (.allowed (g.canApplySeedImmediately epoch), g)
  | .reset => (.done, {})

end ReconciliationGate

end CSharp

/-! ### One gate in two representations -/

section Staging

open CSharp (Staging)
open TypeScript.ReconciliationGate (evict addBounded)

variable {T : Type*} {l : List (PairKey × T)} {key : PairKey}

def CSharp.Staging.of (l : List (PairKey × T)) : Staging T := ⟨(List.lookup · l), l.map fst⟩

lemma lookup_filter_key (p : PairKey → Bool) (l : List (PairKey × T)) (k : PairKey) :
    (l.filter fun entry => p entry.1).lookup k = if p k then l.lookup k else none := by
  induction l with
  | nil => simp
  | cons entry rest ih =>
    obtain ⟨k', v⟩ := entry
    by_cases hk : k = k'
    · subst hk
      cases hp : p k with
      | true => simp [hp]
      | false => simpa [hp] using ih
    · have hne : (k == k') = false := beq_false_of_ne hk
      cases hp : p k' with
      | true => simpa [hp, List.lookup_cons, hne] using ih
      | false => simpa [hp, List.lookup_cons, hne] using ih

lemma lookup_eq_none_of_notMem (h : key ∉ l.map fst) : l.lookup key = none := by
  rw [List.lookup_eq_none_iff]
  intro entry hentry
  simpa using fun heq : key = entry.1 => h (List.mem_map.mpr ⟨entry, hentry, heq.symm⟩)

lemma of_filter_ne (hnodup : (l.map fst).Nodup) (key : PairKey) :
    Staging.of (l.filter (·.1 ≠ key)) =
      ⟨update (List.lookup · l) key none, (l.map fst).erase key⟩ := by
  rw [Staging.of, Staging.mk.injEq, hnodup.erase_eq_filter, List.filter_map]
  refine ⟨funext fun k => ?_, congrArg (List.map fst) (List.filter_congr fun entry _ => ?_)⟩
  · rw [lookup_filter_key (fun k => k ≠ key)]
    by_cases hk : k = key <;> simp [hk]
  · simp only [bne, Function.comp_apply, beq_eq_decide, ne_eq, decide_not]

lemma removeKeyed_of (hnodup : (l.map fst).Nodup) (key : PairKey) :
    (Staging.of l).removeKeyed key = ((l.lookup key).isSome, .of (l.filter (·.1 ≠ key))) := by
  rw [of_filter_ne hnodup, Staging.removeKeyed, Staging.of]
  cases hvalue : l.lookup key with
  | some value => simp [hvalue]
  | none =>
    have hkey : key ∉ l.map fst := by
      rintro hmem
      obtain ⟨entry, hentry, rfl⟩ := List.mem_map.mp hmem
      simpa using List.lookup_eq_none_iff.mp hvalue entry hentry
    rw [List.erase_of_not_mem hkey]
    simp [hvalue]

lemma evict_of (limit : ℕ) (hnodup : (l.map fst).Nodup) :
    Staging.evict limit (List.lookup · l) (l.map fst) = .of (evict limit l) := by
  induction l with
  | nil => rfl
  | cons entry rest ih =>
    obtain ⟨k, v⟩ := entry
    rw [List.map_cons, List.nodup_cons] at hnodup
    rw [List.map_cons, Staging.evict, evict, List.length_cons, List.length_cons, List.length_map]
    have hrest : update (List.lookup · ((k, v) :: rest)) k none = (List.lookup · rest) := by
      funext k'
      by_cases hk : k' = k
      · rw [hk, update_self, lookup_eq_none_of_notMem hnodup.1]
      · rw [update_of_ne hk, List.lookup_cons, beq_false_of_ne hk]
    split
    · rw [hrest, ih hnodup.2]
    · rfl

lemma evict_suffix (limit : ℕ) (l : List (PairKey × T)) : evict limit l <:+ l := by
  induction l with
  | nil => exact List.suffix_rfl
  | cons entry rest ih =>
    rw [evict]
    split
    · exact ih.trans (List.suffix_cons entry rest)
    · exact List.suffix_rfl

lemma length_evict_le (limit : ℕ) (l : List (PairKey × T)) : (evict limit l).length ≤ limit := by
  induction l with
  | nil => exact Nat.zero_le _
  | cons entry rest ih =>
    rw [evict]
    split
    · exact ih
    · exact Nat.not_lt.mp ‹_›

lemma addBounded_of (hnodup : (l.map fst).Nodup) (key : PairKey) (value : T) (limit : ℕ) :
    (Staging.of l).addBounded key value limit = .of (addBounded l key value limit) ∧
      ((addBounded l key value limit).map fst).Nodup := by
  have hkey : key ∉ (l.filter (·.1 ≠ key)).map fst := by
    rintro hmem
    obtain ⟨entry, hentry, heq⟩ := List.mem_map.mp hmem
    simp [heq] at hentry
  have hkept : ((l.filter (·.1 ≠ key) ++ [(key, value)]).map fst).Nodup := by
    rw [List.map_append, List.map_singleton, ← List.concat_eq_append, List.nodup_concat]
    exact ⟨hkey, hnodup.sublist (List.filter_sublist.map fst)⟩
  have hlookup : update (List.lookup · (l.filter (·.1 ≠ key))) key (some value) =
      (List.lookup · (l.filter (·.1 ≠ key) ++ [(key, value)])) := by
    funext k
    rw [List.lookup_append]
    by_cases hk : k = key
    · rw [hk, lookup_eq_none_of_notMem hkey]
      simp
    · rw [update_of_ne hk, List.lookup_cons, beq_false_of_ne hk]
      simp
  refine ⟨?_, hkept.sublist ((evict_suffix limit _).sublist.map fst)⟩
  rw [addBounded, ← evict_of limit hkept, ← hlookup, Staging.addBounded, removeKeyed_of hnodup,
    List.map_append]
  rfl

lemma retain_of (epoch : UInt32) :
    (Staging.of l).retain epoch = .of (l.filter fun entry => ofEpoch epoch entry.1) := by
  rw [Staging.of, Staging.retain, Staging.of, Staging.mk.injEq, List.filter_map]
  refine ⟨funext fun k => ?_, rfl⟩
  rw [lookup_filter_key]
  by_cases hk : k ∈ l.map fst
  · cases ofEpoch epoch k <;> simp [hk]
  · simp [hk, lookup_eq_none_of_notMem hk]

end Staging

namespace TypeScript.ReconciliationGate

variable {maxStaged : ℕ} {TSeed : Type*} {key : TSeed → AckedFrame}
  {g : ReconciliationGate maxStaged TSeed}

def Kept {T : Type*} (limit : ℕ) (l : List (PairKey × T)) : Prop :=
  (l.map fst).Nodup ∧ l.length ≤ limit

lemma kept_nil {T : Type*} (limit : ℕ) : Kept limit ([] : List (PairKey × T)) :=
  ⟨List.nodup_nil, Nat.zero_le _⟩

lemma Kept.filter {T : Type*} {l : List (PairKey × T)} {limit : ℕ} (h : Kept limit l)
    (p : PairKey × T → Bool) : Kept limit (l.filter p) :=
  ⟨h.1.sublist (List.filter_sublist.map fst), Nat.le_trans (List.length_filter_le p l) h.2⟩

lemma Kept.addBounded {T : Type*} {l : List (PairKey × T)} {limit : ℕ} (h : Kept limit l)
    (key : PairKey) (value : T) : Kept limit (addBounded l key value limit) :=
  ⟨(addBounded_of h.1 key value limit).2, length_evict_le limit _⟩

/-- Both queues are within their bound. -/
structure WF (g : ReconciliationGate maxStaged TSeed) : Prop where
  seeds : Kept maxStaged g.seeds
  frames : Kept maxStaged g.frames

def toCSharp (g : ReconciliationGate maxStaged TSeed) :
    CSharp.ReconciliationGate maxStaged TSeed where
  seeds := .of g.seeds
  frames := .of g.frames
  currentStreamEpoch := g.currentStreamEpoch.getD 0
  hasStreamEpoch := g.currentStreamEpoch.isSome

lemma WF.establish (h : g.WF) (epoch : UInt32) : (g.establish epoch).WF :=
  ⟨h.seeds.filter _, h.frames.filter _⟩

lemma toCSharp_establish (epoch : UInt32) :
    g.toCSharp.establish epoch = (g.establish epoch).toCSharp := by
  simp only [CSharp.ReconciliationGate.establish, toCSharp, retain_of, ReconciliationGate.establish,
    Option.getD_some, Option.isSome_some]

lemma toCSharp_observeStream (h : g.WF) (epoch : UInt32) :
    g.toCSharp.observeStream epoch =
        ((g.observeStream epoch).1, (g.observeStream epoch).2.toCSharp) ∧
      (g.observeStream epoch).2.WF := by
  rw [CSharp.ReconciliationGate.observeStream, toCSharp_establish]
  unfold ReconciliationGate.observeStream
  cases hepoch : g.currentStreamEpoch with
  | none => simpa [toCSharp, hepoch] using h.establish epoch
  | some current =>
    have hcurrent : g.toCSharp.currentStreamEpoch = current := by simp [toCSharp, hepoch]
    have hhas : g.toCSharp.hasStreamEpoch = true := by simp [toCSharp, hepoch]
    rw [hcurrent, hhas]
    by_cases hsame : epoch = current
    · simpa [hsame] using h
    · cases hforward : isForwardSequence current epoch with
      | false => simpa [hsame, hforward] using h
      | true => simpa [hsame, hforward] using h.establish epoch

lemma toCSharp_acceptsSeedStream (g : ReconciliationGate maxStaged TSeed) (epoch : UInt32) :
    g.toCSharp.acceptsSeedStream epoch = g.acceptsSeedStream epoch := by
  unfold CSharp.ReconciliationGate.acceptsSeedStream ReconciliationGate.acceptsSeedStream toCSharp
  cases g.currentStreamEpoch <;> rfl

lemma toCSharp_canApplySeedImmediately (g : ReconciliationGate maxStaged TSeed) (epoch : UInt32) :
    g.toCSharp.canApplySeedImmediately epoch = g.canApplySeedImmediately epoch := by
  unfold CSharp.ReconciliationGate.canApplySeedImmediately
    ReconciliationGate.canApplySeedImmediately toCSharp
  cases g.currentStreamEpoch <;> rfl

lemma toCSharp_stageSeed (h : g.WF) (key : TSeed → AckedFrame) (seed : TSeed) :
    g.toCSharp.tryStageSeed key seed =
        ((g.stageSeed key seed).1, (g.stageSeed key seed).2.toCSharp) ∧
      (g.stageSeed key seed).2.WF := by
  have hremoved : g.toCSharp.frames.removeKeyed (pairKey (key seed)) = _ :=
    removeKeyed_of h.frames.1 _
  rw [CSharp.ReconciliationGate.tryStageSeed, toCSharp_acceptsSeedStream, stageSeed, hremoved]
  cases g.acceptsSeedStream (key seed).streamEpoch with
  | false => exact ⟨rfl, h⟩
  | true =>
    cases hpaired : g.frames.lookup (pairKey (key seed)) with
    | some frame => exact ⟨rfl, h.seeds, h.frames.filter _⟩
    | none =>
      have hsame : g.frames.filter (·.1 ≠ pairKey (key seed)) = g.frames := by
        refine List.filter_eq_self.mpr fun entry hentry => decide_eq_true fun heq => ?_
        simpa [heq] using List.lookup_eq_none_iff.mp hpaired entry hentry
      have hadded : g.toCSharp.seeds.addBounded (pairKey (key seed)) seed maxStaged = _ :=
        (addBounded_of h.seeds.1 _ seed maxStaged).1
      refine ⟨?_, h.seeds.addBounded _ seed, h.frames⟩
      rw [hsame]
      simp [toCSharp, ← hadded]

lemma toCSharp_stageFrame (h : g.WF) (frame : AckedFrame) :
    g.toCSharp.tryStageFrame frame =
        ((g.stageFrame frame).1, (g.stageFrame frame).2.toCSharp) ∧ (g.stageFrame frame).2.WF := by
  have hlookup : g.toCSharp.seeds.map (pairKey frame) = g.seeds.lookup (pairKey frame) := rfl
  rw [CSharp.ReconciliationGate.tryStageFrame, stageFrame, hlookup]
  cases g.seeds.lookup (pairKey frame) with
  | some seed =>
    refine ⟨?_, h.seeds.filter _, h.frames⟩
    simp [toCSharp, removeKeyed_of h.seeds.1]
  | none =>
    refine ⟨?_, h.seeds, h.frames.addBounded _ frame⟩
    simp [toCSharp, addBounded_of h.frames.1]

lemma toCSharp_resetForFreshSnapshot (hpos : 0 < maxStaged) (frame : Option AckedFrame) :
    g.toCSharp.resetForFreshSnapshot frame = (g.resetForFreshSnapshot frame).toCSharp ∧
      (g.resetForFreshSnapshot frame).WF := by
  cases frame with
  | none => exact ⟨rfl, kept_nil _, kept_nil _⟩
  | some frame =>
    have hlookup : g.toCSharp.seeds.map (pairKey frame) = g.seeds.lookup (pairKey frame) := rfl
    simp only [CSharp.ReconciliationGate.resetForFreshSnapshot, resetForFreshSnapshot, hlookup]
    cases g.seeds.lookup (pairKey frame) with
    | none => exact ⟨rfl, kept_nil _, kept_nil _⟩
    | some seed =>
      refine ⟨?_, ⟨List.nodup_singleton _, hpos⟩, kept_nil _⟩
      have hlookup : update (fun _ => none) (pairKey frame) (some seed) =
          (List.lookup · [(pairKey frame, seed)]) := by
        funext k
        by_cases hk : k = pairKey frame <;> simp [hk, List.lookup_cons, beq_false_of_ne]
      simp only [toCSharp, hlookup]
      rfl

/-- **The C# gate is the TypeScript gate in another representation**, call by call. -/
theorem toCSharp_step (hpos : 0 < maxStaged) (h : g.WF) (call : GateCall TSeed) :
    g.toCSharp.step maxStaged key call =
        ((g.step maxStaged key call).1, (g.step maxStaged key call).2.toCSharp) ∧
      (g.step maxStaged key call).2.WF := by
  cases call with
  | observeStream epoch =>
    obtain ⟨heq, hwf⟩ := toCSharp_observeStream h epoch
    exact ⟨congrArg (map GateReply.observed id) heq, hwf⟩
  | stageSeed seed =>
    obtain ⟨heq, hwf⟩ := toCSharp_stageSeed h key seed
    exact ⟨congrArg (map GateReply.paired id) heq, hwf⟩
  | stageFrame frame =>
    obtain ⟨heq, hwf⟩ := toCSharp_stageFrame h frame
    exact ⟨congrArg (map GateReply.paired id) heq, hwf⟩
  | resetForFreshSnapshot frame =>
    obtain ⟨heq, hwf⟩ := toCSharp_resetForFreshSnapshot (g := g) hpos frame
    exact ⟨congrArg (Prod.mk GateReply.done) heq, hwf⟩
  | acceptsSeedStream epoch =>
    exact ⟨congrArg (fun b => (GateReply.allowed b, _)) (toCSharp_acceptsSeedStream g epoch), h⟩
  | canApplySeedImmediately epoch =>
    exact ⟨congrArg (fun b => (GateReply.allowed b, _))
      (toCSharp_canApplySeedImmediately g epoch), h⟩
  | reset => exact ⟨rfl, kept_nil _, kept_nil _⟩

end TypeScript.ReconciliationGate

/-- **The two gates agree** in all replies, and hold the same at the end, in the same order and
within the bound. -/
theorem reconciliation_gates_agree {TSeed : Type*} (key : TSeed → AckedFrame) (maxStaged : ℕ)
    (hpos : 0 < maxStaged) (calls : List (GateCall TSeed)) :
    answers (TypeScript.ReconciliationGate.step maxStaged key) {} calls =
        answers (CSharp.ReconciliationGate.step maxStaged key) {} calls ∧
      let ts := final (TypeScript.ReconciliationGate.step maxStaged key) {} calls
      let cs := final (CSharp.ReconciliationGate.step maxStaged key) {} calls
      (cs.seeds = .of ts.seeds ∧ cs.frames = .of ts.frames) ∧
        ts.seeds.length ≤ maxStaged ∧ ts.frames.length ≤ maxStaged := by
  obtain ⟨hanswers, hcs, hwf⟩ := simulate
    (f := TypeScript.ReconciliationGate.step maxStaged key)
    (g := CSharp.ReconciliationGate.step maxStaged key) (K := fun _ _ => True)
    (R := fun ts cs => cs = ts.toCSharp ∧ ts.WF) (s := {}) (t := {})
    (by
      rintro ts cs call ⟨rfl, hwf⟩ -
      obtain ⟨hstep, hwf'⟩ := TypeScript.ReconciliationGate.toCSharp_step hpos hwf call
      rw [hstep]
      exact ⟨rfl, rfl, hwf'⟩)
    ⟨rfl, TypeScript.ReconciliationGate.kept_nil _, TypeScript.ReconciliationGate.kept_nil _⟩ calls
    (meets_of_forall (fun _ _ => trivial) _ calls)
  exact ⟨hanswers, ⟨by rw [hcs]; rfl, by rw [hcs]; rfl⟩, hwf.seeds.2, hwf.frames.2⟩

theorem reconciliation_gates_agree_eviction : 0 < 2 ∧
    answers (TypeScript.ReconciliationGate.step 2 id) {}
        [.stageSeed ⟨1, 1, 1⟩, .stageSeed ⟨1, 2, 2⟩, .stageSeed ⟨1, 3, 3⟩, .stageFrame ⟨1, 2, 2⟩] =
      answers (CSharp.ReconciliationGate.step 2 id) {}
        [.stageSeed ⟨1, 1, 1⟩, .stageSeed ⟨1, 2, 2⟩, .stageSeed ⟨1, 3, 3⟩, .stageFrame ⟨1, 2, 2⟩] :=
  ⟨by decide, (reconciliation_gates_agree id 2 (by decide) _).1⟩

/-! ### What the gate pairs -/

lemma colon_notMem_decimalText (n : UInt32) : ':' ∉ decimalText n := fun h =>
  absurd (Nat.isDigit_of_mem_toDigits (by decide) (by decide) h) (by decide)

lemma decimalText_injective : Injective decimalText := by
  intro m n h
  have hvalue := congrArg (Nat.ofDigitChars 10 · 0) h
  exact UInt32.toNat.inj (by simpa [decimalText] using hvalue)

lemma pairKey_injective : Injective pairKey := by
  have hparts (f : AckedFrame) : (pairKey f).splitOn ':' =
      [decimalText f.streamEpoch, decimalText f.tick, decimalText f.processedSequence] := by
    have hkey : pairKey f = [':'].intercalate
        [decimalText f.streamEpoch, decimalText f.tick, decimalText f.processedSequence] := by
      simp [List.intercalate]
      rfl
    rw [hkey, List.splitOn_intercalate _ (by simp [colon_notMem_decimalText]) (by simp)]
  rintro ⟨epoch, tick, sequence⟩ ⟨epoch', tick', sequence'⟩ h
  have hsplit := congrArg (List.splitOn ':') h
  rw [hparts, hparts] at hsplit
  simpa [decimalText_injective.eq_iff] using hsplit

/-- Everything in a map is under its own key, and is one of `S`. -/
def Own {T : Type*} (key : T → AckedFrame) (S : T → Prop) (l : List (PairKey × T)) : Prop :=
  ∀ entry ∈ l, entry.1 = pairKey (key entry.2) ∧ S entry.2

namespace Own

variable {T : Type*} {key : T → AckedFrame} {S : T → Prop} {l : List (PairKey × T)} {v : T}

lemma filter (h : Own key S l) (p : PairKey × T → Bool) : Own key S (l.filter p) :=
  fun entry hentry => h entry (List.mem_of_mem_filter hentry)

lemma addBounded (h : Own key S l) (hv : S v) (limit : ℕ) :
    Own key S (TypeScript.ReconciliationGate.addBounded l (pairKey (key v)) v limit) := by
  intro entry hentry
  have hmem := (evict_suffix limit _).mem hentry
  simp only [List.mem_append, List.mem_filter, List.mem_singleton] at hmem
  rcases hmem with ⟨hold, -⟩ | rfl
  · exact h entry hold
  · exact ⟨rfl, hv⟩

lemma lookup (h : Own key S l) {f : AckedFrame} (hv : l.lookup (pairKey f) = some v) :
    key v = f ∧ S v := by
  obtain ⟨before, after, rfl, -⟩ := List.lookup_eq_some_iff.mp hv
  obtain ⟨hkey, hS⟩ := h (pairKey f, v) (by simp)
  exact ⟨pairKey_injective hkey.symm, hS⟩

end Own

namespace TypeScript.ReconciliationGate

variable {maxStaged : ℕ} {TSeed : Type*} {key : TSeed → AckedFrame}
  {g : ReconciliationGate maxStaged TSeed} {calls : List (GateCall TSeed)}

/-- What is staged was given by a call. -/
structure Staged (key : TSeed → AckedFrame) (calls : List (GateCall TSeed))
    (g : ReconciliationGate maxStaged TSeed) : Prop where
  seeds : Own key (.stageSeed · ∈ calls) g.seeds
  frames : Own id (.stageFrame · ∈ calls) g.frames

lemma Staged.step (h : g.Staged key calls) {call : GateCall TSeed} (hcall : call ∈ calls) :
    (g.step maxStaged key call).2.Staged key calls := by
  have hestablish (epoch : UInt32) : (g.establish epoch).Staged key calls :=
    ⟨h.seeds.filter _, h.frames.filter _⟩
  cases call with
  | observeStream epoch =>
    simp only [ReconciliationGate.step, Prod.map_snd, id, observeStream]
    split
    · exact hestablish epoch
    split_ifs
    · exact h
    · exact h
    · exact hestablish epoch
  | stageSeed seed =>
    simp only [ReconciliationGate.step, Prod.map_snd, id, stageSeed]
    split_ifs
    · exact h
    · exact ⟨h.seeds, h.frames.filter _⟩
    · exact ⟨h.seeds.addBounded hcall _, h.frames⟩
  | stageFrame frame =>
    simp only [ReconciliationGate.step, Prod.map_snd, id, stageFrame]
    split
    · exact ⟨h.seeds.filter _, h.frames⟩
    · exact ⟨h.seeds, h.frames.addBounded hcall _⟩
  | resetForFreshSnapshot frame =>
    simp only [ReconciliationGate.step, resetForFreshSnapshot]
    split
    · exact ⟨by simp [Own], by simp [Own]⟩
    split
    · exact ⟨by simp [Own], by simp [Own]⟩
    · rename_i hseed
      obtain ⟨hkey, hmem⟩ := h.seeds.lookup hseed
      exact ⟨by simpa [Own, hkey] using hmem, by simp [Own]⟩
  | acceptsSeedStream epoch => exact h
  | canApplySeedImmediately epoch => exact h
  | reset => exact ⟨by simp [ReconciliationGate.step, Own], by simp [ReconciliationGate.step, Own]⟩

/-- **The gate pairs a seed with its own frame only**, whatever was called before, and only if both
were staged: the other half of a pair is one of the earlier calls. -/
theorem paired_genuine (key : TSeed → AckedFrame) (maxStaged : ℕ) (calls : List (GateCall TSeed)) :
    let g := Machine.final (ReconciliationGate.step maxStaged key) {} calls
    (∀ frame seed, (g.stageFrame frame).1 = some seed →
      key seed = frame ∧ .stageSeed seed ∈ calls) ∧
      ∀ seed seed', (g.stageSeed key seed).1 = some seed' →
        seed' = seed ∧ .stageFrame (key seed) ∈ calls := by
  -- `calls` stays what it is; the induction is on the calls that are still to come
  have hrun : ∀ rest ⊆ calls, ∀ g : ReconciliationGate maxStaged TSeed, g.Staged key calls →
      (Machine.final (ReconciliationGate.step maxStaged key) g rest).Staged key calls := by
    intro rest hrest
    induction rest with
    | nil => exact fun g h => h
    | cons call rest ih =>
      obtain ⟨hcall, hrest⟩ := List.cons_subset.mp hrest
      exact fun g h => ih hrest _ (h.step hcall)
  have hstaged := hrun calls (List.Subset.refl _) {} ⟨by simp [Own], by simp [Own]⟩
  intro g
  constructor
  · intro frame seed hpair
    unfold stageFrame at hpair
    split at hpair
    · rename_i found hfound
      obtain rfl := Option.some.inj hpair
      exact hstaged.seeds.lookup hfound
    · cases hpair
  · intro seed seed' hpair
    unfold stageSeed at hpair
    split_ifs at hpair with haccept hfound
    obtain rfl := Option.some.inj hpair
    obtain ⟨frame, hframe⟩ := Option.isSome_iff_exists.mp hfound
    obtain ⟨rfl, hmem⟩ := hstaged.frames.lookup hframe
    exact ⟨rfl, hmem⟩

end TypeScript.ReconciliationGate

end Mmokit
