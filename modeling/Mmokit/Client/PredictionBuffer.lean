/-
The prediction buffers of the two client SDKs: `pkg/quantize/ts/prediction-buffer.ts` and
`csharp/Mmokit.Sdk.Core/PredictionBuffer.cs`.

Both refuse an input that is not newer than the one before it, but not in the same way: the
TypeScript buffer remembers the newest sequence number that it ever took, the C# buffer looks at
the last pending input.
-/
import Mathlib
import Mmokit.Library.Machines
import Mmokit.Library.Serial

namespace Mmokit

open List Machine
open Option hiding sequence

def sequenceDistance (start stop : UInt32) : UInt32 := stop - start

def isForwardSequence (start stop : UInt32) : Bool :=
  0 < sequenceDistance start stop && sequenceDistance start stop < 0x80000000

def isAcknowledgedBy (sequence cumulativeAck : UInt32) : Bool :=
  sequenceDistance sequence cumulativeAck = 0 ||
    sequenceDistance sequence cumulativeAck < 0x80000000

def isSequenceNewer (candidate reference : UInt32) : Bool :=
  candidate - reference ≠ 0 && candidate - reference < 0x80000000

lemma isForwardSequence_eq (a b : UInt32) : isForwardSequence a b = isSequenceNewer b a := by
  have hpos : 0 < b - a ↔ b - a ≠ 0 := by
    rw [ne_eq, ← UInt32.toNat_inj]
    exact Nat.pos_iff_ne_zero
  rw [isForwardSequence, isSequenceNewer, sequenceDistance, decide_eq_decide.mpr hpos]

lemma isAcknowledgedBy_eq (seq ack : UInt32) :
    isAcknowledgedBy seq ack = (seq = ack || isSequenceNewer ack seq) := by
  have hzero : ack - seq = 0 ↔ seq = ack := by
    rw [UInt32.sub_eq_iff_eq_add, UInt32.zero_add]
    exact eq_comm
  rw [isAcknowledgedBy, isSequenceNewer, sequenceDistance, decide_eq_decide.mpr hzero]
  by_cases h : seq = ack
  · simp only [h, decide_true, Bool.true_or]
  · rw [decide_eq_true (hzero.not.mpr h), Bool.true_and]

structure PendingInput (TInput : Type*) where
  seq : UInt32
  input : TInput
  deriving DecidableEq

inductive BufferReply (TInput : Type*)
  | refused
  | recorded (dropped : Option (PendingInput TInput))
  | acknowledged (count : ℕ)
  | cleared
  deriving DecidableEq

inductive BufferCall (TInput : Type*)
  | record (seq : UInt32) (input : TInput)
  | acknowledge (seq : UInt32)
  | reset (ack : Option UInt32)

namespace TypeScript

structure PredictionBuffer (TInput : Type*) where
  maxPending : ℕ
  maxPending_pos : 0 < maxPending
  entries : List (PendingInput TInput) := []
  newestSequence : Option UInt32 := none
  lastAckSequence : Option UInt32 := none
  overflowCount : ℕ := 0

namespace PredictionBuffer

variable {TInput : Type*} (b : PredictionBuffer TInput)

def new (maxPending : ℕ) (hpos : 0 < maxPending) : PredictionBuffer TInput where
  maxPending := maxPending
  maxPending_pos := hpos

def stale (remembered : Option UInt32) (sequence : UInt32) : Bool :=
  remembered.any fun last => !isForwardSequence last sequence

def push (sequence : UInt32) (input : TInput) : BufferReply TInput × PredictionBuffer TInput :=
  if stale b.lastAckSequence sequence || stale b.newestSequence sequence then (.refused, b)
  else
    let entries := b.entries ++ [⟨sequence, input⟩]
    let b := { b with entries, newestSequence := some sequence }
    if entries.length ≤ b.maxPending then (.recorded none, b)
    else (.recorded entries.head?,
      { b with entries := entries.tail, overflowCount := b.overflowCount + 1 })

def acknowledge (ack : UInt32) : BufferReply TInput × PredictionBuffer TInput :=
  if b.lastAckSequence.any fun last => ack ≠ last && !isForwardSequence last ack then
    (.acknowledged 0, b)
  else if some ack = b.lastAckSequence then (.acknowledged 0, b)
  else
    let confirmed := b.entries.takeWhile fun entry => isAcknowledgedBy entry.seq ack
    (.acknowledged confirmed.length,
      { b with lastAckSequence := some ack, entries := b.entries.drop confirmed.length })

def reset (ackSeq : Option UInt32) : BufferReply TInput × PredictionBuffer TInput :=
  (.cleared, { b with
    entries := [], newestSequence := none, lastAckSequence := ackSeq, overflowCount := 0 })

def step (b : PredictionBuffer TInput) (call : BufferCall TInput) :
    (BufferReply TInput × List (PendingInput TInput)) × PredictionBuffer TInput :=
  let result := match call with
    | .record sequence input => b.push sequence input
    | .acknowledge ack => b.acknowledge ack
    | .reset ack => b.reset ack
  ((result.1, result.2.entries), result.2)

end PredictionBuffer

end TypeScript

namespace CSharp

structure PredictionBuffer (TInput : Type*) where
  capacity : ℕ
  capacity_pos : 0 < capacity
  pending : List (PendingInput TInput) := []
  hasLastAcknowledgement : Bool := false
  lastAcknowledgedSequence : UInt32 := 0
  droppedInputCount : ℕ := 0

namespace PredictionBuffer

variable {TInput : Type*} (b : PredictionBuffer TInput)

def new (capacity : ℕ) (hpos : 0 < capacity) : PredictionBuffer TInput where
  capacity := capacity
  capacity_pos := hpos

def tryRecord (sequence : UInt32) (input : TInput) :
    BufferReply TInput × PredictionBuffer TInput :=
  if b.hasLastAcknowledgement && !isSequenceNewer sequence b.lastAcknowledgedSequence then
    (.refused, b)
  else if b.pending.getLast?.any fun last => !isSequenceNewer sequence last.seq then (.refused, b)
  else if b.pending.length = b.capacity then
    (.recorded b.pending.head?,
      { b with
        pending := b.pending.tail ++ [⟨sequence, input⟩],
        droppedInputCount := b.droppedInputCount + 1 })
  else (.recorded none, { b with pending := b.pending ++ [⟨sequence, input⟩] })

def acknowledge (ack : UInt32) : BufferReply TInput × PredictionBuffer TInput :=
  if b.hasLastAcknowledgement && !isSequenceNewer ack b.lastAcknowledgedSequence then
    (.acknowledged 0, b)
  else
    let removed := b.pending.takeWhile fun entry => entry.seq = ack || isSequenceNewer ack entry.seq
    (.acknowledged removed.length,
      { b with
        hasLastAcknowledgement := true,
        lastAcknowledgedSequence := ack,
        pending := b.pending.drop removed.length })

def reset (ack : Option UInt32) : BufferReply TInput × PredictionBuffer TInput :=
  (.cleared, { b with
    pending := [], hasLastAcknowledgement := ack.isSome, lastAcknowledgedSequence := ack.getD 0,
    droppedInputCount := 0 })

def step (b : PredictionBuffer TInput) (call : BufferCall TInput) :
    (BufferReply TInput × List (PendingInput TInput)) × PredictionBuffer TInput :=
  let result := match call with
    | .record sequence input => b.tryRecord sequence input
    | .acknowledge ack => b.acknowledge ack
    | .reset ack => b.reset ack
  ((result.1, result.2.pending), result.2)

end PredictionBuffer

end CSharp

/-! ### Where they differ -/

variable {TInput : Type*}

namespace TypeScript.PredictionBuffer

/-- When nothing is pending, an input that is newer than the last acknowledgement is also newer than
the last input that was taken. -/
def InOrder (b : PredictionBuffer TInput) : BufferCall TInput → Prop
  | .record sequence _ => b.entries = [] → stale b.lastAckSequence sequence = false →
      stale b.newestSequence sequence = false
  | _ => True

instance (b : PredictionBuffer TInput) (call) : Decidable (b.InOrder call) := by
  cases call <;> dsimp only [InOrder] <;> infer_instance

end TypeScript.PredictionBuffer

/-- The two buffers are in the same state. -/
structure BufferStates (ts : TypeScript.PredictionBuffer TInput)
    (cs : CSharp.PredictionBuffer TInput) : Prop where
  capacity : cs.capacity = ts.maxPending
  pending : cs.pending = ts.entries
  acknowledged : ts.lastAckSequence =
    if cs.hasLastAcknowledgement then some cs.lastAcknowledgedSequence else none
  dropped : cs.droppedInputCount = ts.overflowCount
  newest : ∀ last, ts.entries.getLast? = some last → ts.newestSequence = some last.seq
  bounded : ts.entries.length ≤ ts.maxPending

namespace BufferStates

open TypeScript.PredictionBuffer (stale)

variable {ts : TypeScript.PredictionBuffer TInput} {cs : CSharp.PredictionBuffer TInput}

lemma new (capacity : ℕ) (hpos : 0 < capacity) :
    BufferStates (.new capacity hpos : TypeScript.PredictionBuffer TInput)
      (.new capacity hpos) := by
  refine ⟨rfl, rfl, rfl, rfl, fun _ hlast => ?_, Nat.zero_le _⟩
  cases hlast

lemma stale_eq (h : BufferStates ts cs) (sequence : UInt32) :
    stale ts.lastAckSequence sequence =
      (cs.hasLastAcknowledgement && !isSequenceNewer sequence cs.lastAcknowledgedSequence) := by
  rw [h.acknowledged, stale]
  cases cs.hasLastAcknowledgement with
  | false => rfl
  | true => rw [if_pos rfl, any_some, isForwardSequence_eq, Bool.true_and]

lemma stale_newest (h : BufferStates ts cs) {sequence : UInt32}
    (hempty : ts.entries = [] → stale ts.newestSequence sequence = false) :
    stale ts.newestSequence sequence =
      cs.pending.getLast?.any fun last => !isSequenceNewer sequence last.seq := by
  rw [h.pending]
  cases hlast : ts.entries.getLast? with
  | none => exact hempty (getLast?_eq_none_iff.mp hlast)
  | some last => rw [h.newest last hlast, stale, any_some, any_some,
      isForwardSequence_eq]

lemma push (h : BufferStates ts cs) {sequence : UInt32} {input : TInput}
    (horder : ts.InOrder (.record sequence input)) :
    (ts.push sequence input).1 = (cs.tryRecord sequence input).1 ∧
      BufferStates (ts.push sequence input).2 (cs.tryRecord sequence input).2 := by
  rw [TypeScript.PredictionBuffer.push, CSharp.PredictionBuffer.tryRecord, ← h.stale_eq]
  cases hack : stale ts.lastAckSequence sequence with
  | true => exact ⟨rfl, h⟩
  | false =>
    rw [Bool.false_or, ← h.stale_newest fun hempty => horder hempty hack]
    cases stale ts.newestSequence sequence with
    | true => exact ⟨rfl, h⟩
    | false =>
      have hpos := ts.maxPending_pos
      have hbounded := h.bounded
      have hlength := congrArg length h.pending
      have hcapacity := h.capacity
      have hgrown : (ts.entries ++ [PendingInput.mk sequence input]).length =
          ts.entries.length + 1 := length_append
      simp only [Bool.false_eq_true, if_false]
      by_cases hfull : ts.entries.length = ts.maxPending
      · rw [if_neg (by omega), if_pos (by omega)]
        have hne : ts.entries ≠ [] := by
          intro hempty
          rw [hempty, length_nil] at hfull
          omega
        have htail : (ts.entries ++ [PendingInput.mk sequence input]).tail =
            ts.entries.tail ++ [⟨sequence, input⟩] := tail_append_of_ne_nil hne
        refine ⟨?_, hcapacity, ?_, h.acknowledged, congrArg (· + 1) h.dropped, fun last hlast => ?_,
          ?_⟩
        · rw [h.pending, head?_append, or_of_isSome (isSome_head?.mpr hne)]
        · rw [h.pending, htail]
        · rw [htail, getLast?_concat] at hlast
          rw [← some.inj hlast]
        · rw [htail, length_append, length_tail, length_singleton]
          dsimp only
          omega
      · rw [if_pos (by omega), if_neg (by omega)]
        refine ⟨rfl, hcapacity, congrArg (· ++ _) h.pending, h.acknowledged, h.dropped,
          fun last hlast => ?_, ?_⟩
        · rw [getLast?_concat] at hlast
          rw [← some.inj hlast]
        · dsimp only
          omega

lemma acknowledge (h : BufferStates ts cs) (ack : UInt32) :
    (ts.acknowledge ack).1 = (cs.acknowledge ack).1 ∧
      BufferStates (ts.acknowledge ack).2 (cs.acknowledge ack).2 := by
  have hguard : (cs.hasLastAcknowledgement && !isSequenceNewer ack cs.lastAcknowledgedSequence) =
      (ts.lastAckSequence.any (fun last => ack ≠ last && !isForwardSequence last ack) ||
        some ack = ts.lastAckSequence) := by
    rw [h.acknowledged]
    cases cs.hasLastAcknowledgement with
    | false => rfl
    | true =>
      rw [if_pos rfl, any_some, isForwardSequence_eq]
      by_cases heq : ack = cs.lastAcknowledgedSequence
      · simp [heq, isSequenceNewer]
      · simp [heq]
  have hconfirmed : (fun entry : PendingInput TInput => isAcknowledgedBy entry.seq ack) =
      fun entry => entry.seq = ack || isSequenceNewer ack entry.seq := by
    funext entry
    exact isAcknowledgedBy_eq entry.seq ack
  rw [TypeScript.PredictionBuffer.acknowledge, CSharp.PredictionBuffer.acknowledge, hguard]
  by_cases hback : ts.lastAckSequence.any
    (fun last => ack ≠ last && !isForwardSequence last ack) = true
  · rw [hback]
    exact ⟨rfl, h⟩
  rw [if_neg hback, Bool.eq_false_iff.mpr hback, Bool.false_or]
  by_cases hsame : some ack = ts.lastAckSequence
  · rw [if_pos hsame, if_pos (decide_eq_true hsame)]
    exact ⟨rfl, h⟩
  rw [if_neg hsame, if_neg (by simpa using hsame), hconfirmed]
  refine ⟨?_, h.capacity, ?_, rfl, h.dropped, fun last hlast => ?_, ?_⟩
  · rw [h.pending]
  · rw [h.pending]
  · rw [getLast?_drop] at hlast
    split at hlast
    · cases hlast
    · exact h.newest last hlast
  · exact Nat.le_trans (drop_sublist _ _).length_le h.bounded

/-- **Each call keeps the two buffers together**, as long as the inputs come in order. -/
theorem step {call : BufferCall TInput} (h : BufferStates ts cs) (horder : ts.InOrder call) :
    (ts.step call).1 = (cs.step call).1 ∧ BufferStates (ts.step call).2 (cs.step call).2 := by
  have hsame : ∀ {r : BufferReply TInput × TypeScript.PredictionBuffer TInput}
      {r' : BufferReply TInput × CSharp.PredictionBuffer TInput},
      r.1 = r'.1 ∧ BufferStates r.2 r'.2 →
        (r.1, r.2.entries) = (r'.1, r'.2.pending) ∧ BufferStates r.2 r'.2 :=
    fun hr => ⟨Prod.ext hr.1 hr.2.pending.symm, hr.2⟩
  cases call with
  | record sequence input => exact hsame (h.push horder)
  | acknowledge ack => exact hsame (h.acknowledge ack)
  | reset ack =>
    refine hsame ⟨rfl, h.capacity, rfl, ?_, rfl, fun _ hlast => ?_, Nat.zero_le _⟩
    · cases ack <;> rfl
    · cases hlast

lemma differ {call : BufferCall TInput} (h : BufferStates ts cs) (horder : ¬ ts.InOrder call) :
    (ts.step call).1 ≠ (cs.step call).1 := by
  cases call with
  | acknowledge ack => exact absurd trivial horder
  | reset ack => exact absurd trivial horder
  | record sequence input =>
    simp only [TypeScript.PredictionBuffer.InOrder, not_forall] at horder
    obtain ⟨hempty, hack, hstale⟩ := horder
    have hrefused : ts.push sequence input = (.refused, ts) := by
      rw [TypeScript.PredictionBuffer.push, eq_true_of_ne_false hstale, Bool.or_true,
        if_pos rfl]
    have htaken : (cs.tryRecord sequence input).1 = .recorded none := by
      have hcapacity := cs.capacity_pos
      have hpending : cs.pending = [] := h.pending.trans hempty
      rw [CSharp.PredictionBuffer.tryRecord, ← h.stale_eq, hack,
        if_neg Bool.false_ne_true, hpending,
        getLast?_nil, any_none, if_neg Bool.false_ne_true, length_nil,
        if_neg (by omega)]
    intro heq
    have hreply : BufferReply.refused = (cs.tryRecord sequence input).1 :=
      (congrArg Prod.fst hrefused).symm.trans (congrArg Prod.fst heq)
    rw [htaken] at hreply
    cases hreply

end BufferStates

/-- **When the two buffers agree**, in replies and in what they hold: exactly if, while nothing is
pending, no input comes that is newer than the last acknowledgement but not newer than the last
input that was taken. -/
theorem prediction_buffers_agree_iff (capacity : ℕ) (hpos : 0 < capacity)
    (calls : List (BufferCall TInput)) :
    answers TypeScript.PredictionBuffer.step (.new capacity hpos) calls =
        answers CSharp.PredictionBuffer.step (.new capacity hpos) calls ↔
      Machine.Meets TypeScript.PredictionBuffer.step TypeScript.PredictionBuffer.InOrder
        (.new capacity hpos) calls := by
  refine answers_eq_iff (R := BufferStates) ?_ ?_ (BufferStates.new capacity hpos) calls
  · exact BufferStates.step
  · exact BufferStates.differ

theorem prediction_buffers_agree_iff_eviction : 0 < 1 ∧
    answers TypeScript.PredictionBuffer.step (.new 1 (by decide))
        [.record 4294967295 'a', .record 0 'b', .acknowledge 0, .record 1 'c'] =
      answers CSharp.PredictionBuffer.step (.new 1 (by decide))
        [.record 4294967295 'a', .record 0 'b', .acknowledge 0, .record 1 'c'] :=
  ⟨by decide, (prediction_buffers_agree_iff 1 (by decide) _).mpr
    (by refine And.intro ?_ (And.intro ?_ (And.intro ?_ (And.intro ?_ trivial))) <;> decide)⟩

/-- **An input that only the C# buffer takes.** The input 10 is acknowledged by 20, and the input
that follows lies just below half of the number space above 20, hence not above 10. -/
theorem prediction_buffers_disagree :
    answers TypeScript.PredictionBuffer.step (.new 8 (by decide))
        [.record 10 'a', .acknowledge 20, .record 2147483663 'b'] ≠
      answers CSharp.PredictionBuffer.step (.new 8 (by decide))
        [.record 10 'a', .acknowledge 20, .record 2147483663 'b'] := by
  decide +kernel

end Mmokit
