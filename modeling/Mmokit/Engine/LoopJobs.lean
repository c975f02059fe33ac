/-
Jobs for the game loop (`pkg/engine/run_on_loop.go`, `processAdminCmds` in `pkg/engine/loop.go`).

Whoever claims the job decides about it: the loop runs it, a stop of the loop fails it, and the
caller takes it back. Every step here is one atomic action of the source: reading the gate, a case
of a `select`, a claim.
-/
import Mmokit.Library.Runs
import Mathlib.Logic.Function.Basic

namespace Mmokit.Engine

open Function

inductive Answer
  | result
  | queued
  | loopStopped
  | queueFull
  | ctxErr
deriving DecidableEq

def Answer.Refuses (a : Answer) : Prop := a = .loopStopped ∨ a = .queueFull ∨ a = .ctxErr

inductive Claimant
  | loop
  | stop
  | caller
deriving DecidableEq

inductive CallerState
  | idle
  | gated (gate : ℕ)
  | sending (gate : ℕ)
  | sent (gate : ℕ)
  | waiting (gate : ℕ)
  | awaiting
  | returned (a : Answer)
deriving DecidableEq

/-- A job, and where its caller is. -/
structure LoopJob where
  /-- `RunOnLoop`, not `SubmitLoopJob`. -/
  blocking : Bool := true
  caller : CallerState := .idle
  claimed : Option Claimant := none
  /-- The error of the job, once `done` is closed. -/
  done : Option Answer := none
  runs : ℕ := 0
  completed : ℕ := 0
deriving DecidableEq

inductive JobEvent
  | inline (blocking : Bool)
  | enter (blocking : Bool)
  | checkGate
  | send
  | sendFull
  | sendStopped
  | sendCancelled
  | recheck
  | observe
  | quit (cancelled : Bool)
  | claim (stop : Bool)
  | finish
deriving DecidableEq

namespace LoopJob

def step (job : LoopJob) (gate : ℕ) (closed : ℕ → Bool) : JobEvent → Option LoopJob
  | .inline blocking =>
    if job.caller = .idle then
      some ⟨blocking, .returned (if blocking then .result else .queued), some .loop,
        some .result, 1, 1⟩
    else none
  | .enter blocking =>
    if job.caller = .idle then some { job with blocking, caller := .gated gate } else none
  | .checkGate => match job.caller with
    | .gated g => some
      { job with caller := if closed g then .returned .loopStopped else .sending g }
    | _ => none
  | .send => match job.caller with
    | .sending g => some { job with caller := .sent g }
    | _ => none
  | .sendFull => match job.caller with
    | .sending _ => if job.blocking then none else some { job with caller := .returned .queueFull }
    | _ => none
  | .sendStopped => match job.caller with
    | .sending g =>
      if job.blocking ∧ closed g then some { job with caller := .returned .loopStopped } else none
    | _ => none
  | .sendCancelled => match job.caller with
    | .sending _ => if job.blocking then some { job with caller := .returned .ctxErr } else none
    | _ => none
  | .recheck => match job.caller with
    | .sent g =>
      if closed g ∧ job.claimed = none then
        some { job with claimed := some .caller, caller := .returned .loopStopped }
      else some { job with caller := if job.blocking then .waiting g else .returned .queued }
    | _ => none
  | .observe => match job.caller, job.done with
    | .waiting _, some a | .awaiting, some a => some { job with caller := .returned a }
    | _, _ => none
  | .quit cancelled => match job.caller with
    | .waiting g =>
      if cancelled ∨ closed g then
        if job.claimed = none then
          some { job with
            claimed := some .caller
            caller := .returned (if cancelled then .ctxErr else .loopStopped) }
        else some { job with caller := .awaiting }
      else none
    | _ => none
  | .claim stop =>
    if job.claimed ≠ none then some job
    else if stop then some { job with claimed := some .stop, done := some .loopStopped }
    else some { job with claimed := some .loop, runs := job.runs + 1 }
  | .finish =>
    if job.claimed = some .loop ∧ job.done = none then
      some { job with completed := job.completed + 1, done := some .result }
    else none

def After (P : Answer → Prop) : CallerState → Prop
  | .sent _ | .waiting _ | .awaiting => True
  | .returned a => P a
  | _ => False

/-- What has happened to a job agrees with who claimed it. -/
def Fits (job : LoopJob) : Prop :=
  match job.claimed with
  | none => job.runs = 0 ∧ job.completed = 0 ∧ job.done = none ∧ job.caller ≠ .awaiting ∧
      job.caller ≠ .returned .result
  | some .caller => job.runs = 0 ∧ job.completed = 0 ∧ job.done = none ∧
      ∃ a, job.caller = .returned a ∧ a.Refuses
  | some .stop => job.runs = 0 ∧ job.completed = 0 ∧ job.done = some .loopStopped ∧
      After (fun a => a = .loopStopped ∨ a = .queued) job.caller
  | some .loop => job.runs = 1 ∧
      (job.completed = 0 ∧ job.done = none ∧ After (· = .queued) job.caller ∨
        job.completed = 1 ∧ job.done = some .result ∧
          After (fun a => a = .result ∨ a = .queued) job.caller)

def Posted (job : LoopJob) : Prop :=
  job.claimed = none → After (· = .queued) job.caller

variable {job job' : LoopJob} {gate : ℕ} {closed : ℕ → Bool} {e : JobEvent}

lemma After.mono {P Q : Answer → Prop} {caller : CallerState} (hPQ : ∀ a, P a → Q a)
    (h : After P caller) : After Q caller := by
  cases caller with
  | returned a => exact hPQ a h
  | _ => exact h

lemma fits_step (h : job.Fits) (hposted : ∀ stop, e = .claim stop → job.Posted)
    (hstep : job.step gate closed e = some job') : job'.Fits := by
  obtain ⟨blocking, caller, claimed, done, runs, completed⟩ := job
  cases e with
  | claim stop =>
    cases claimed with
    | some c =>
      cases hstep
      exact h
    | none =>
      have hafter := hposted stop rfl rfl
      obtain ⟨rfl, rfl, rfl, -⟩ := h
      cases stop <;> cases hstep
      · exact ⟨rfl, .inl ⟨rfl, rfl, hafter⟩⟩
      · exact ⟨rfl, rfl, rfl, hafter.mono fun a => .inr⟩
  -- the caller's own steps: by who has claimed the job and where the caller is
  | _ =>
    simp only [step] at hstep
    rcases claimed with _ | _ | _ | _ <;> cases caller <;> grind [Fits, After, Answer.Refuses]

lemma posted_step (h : job.Fits) (hposted : job.Posted ∨ e = .send)
    (hstep : job.step gate closed e = some job') : job'.Posted := by
  obtain ⟨blocking, caller, claimed, done, runs, completed⟩ := job
  cases e <;> simp only [step] at hstep <;> cases caller <;> grind [Fits, Posted, After]

lemma returned_step {a : Answer} (h : job.caller = .returned a)
    (hstep : job.step gate closed e = some job') : job'.caller = .returned a := by
  cases e <;> simp only [step, h] at hstep <;> grind

end LoopJob

/-- The queue with its jobs. A job in `received` was taken out of the channel by a drain of the
loop, or by a stop, and is about to be claimed. -/
structure LoopQueue where
  buf : ℕ
  jobs : ℕ → LoopJob := fun _ => {}
  ch : List ℕ := []
  received : List (Bool × ℕ) := []
  gate : ℕ := 0
  closed : ℕ → Bool := fun _ => false

/-- `stop` closes the gate first and then receives like a drain. -/
inductive LoopAction
  | job (j : ℕ) (e : JobEvent)
  | receive (stop : Bool)
  | closeGate
  | start
deriving DecidableEq

namespace LoopQueue

def queueStep (q : LoopQueue) (j : ℕ) : JobEvent → Option LoopQueue
  | .send => if q.ch.length < q.buf then some { q with ch := q.ch ++ [j] } else none
  | .sendFull => if q.buf ≤ q.ch.length then some q else none
  | .claim stop =>
    if (stop, j) ∈ q.received then some { q with received := q.received.erase (stop, j) } else none
  | _ => some q

def step (q : LoopQueue) : LoopAction → Option LoopQueue
  | .job j e => (q.queueStep j e).bind fun q' =>
    ((q.jobs j).step q.gate q.closed e).map fun job => { q' with jobs := update q.jobs j job }
  | .receive stop => match q.ch with
    | [] => none
    | j :: ch => some { q with ch, received := (stop, j) :: q.received }
  | .closeGate => some { q with closed := update q.closed q.gate true }
  | .start => some (if q.closed q.gate then { q with gate := q.gate + 1 } else q)

def Listed (q : LoopQueue) (j : ℕ) : Prop := j ∈ q.ch ∨ ∃ stop, (stop, j) ∈ q.received

def Inv (q : LoopQueue) : Prop := ∀ j, (q.jobs j).Fits ∧ (q.Listed j → (q.jobs j).Posted)

variable {q q' : LoopQueue} {a : LoopAction} {j : ℕ}

lemma listed_queueStep {e : JobEvent} (h : q.queueStep j e = some q') :
    (∀ i, q'.Listed i → q.Listed i ∨ i = j ∧ e = .send) ∧ ∀ stop, e = .claim stop → q.Listed j := by
  cases e with
  | send =>
    obtain ⟨-, h⟩ := Option.ite_none_right_eq_some.mp h
    cases h
    refine ⟨fun i hi => ?_, fun _ h => by cases h⟩
    rcases hi with hi | hi
    · exact (List.mem_append.mp hi).imp .inl fun hi => ⟨List.mem_singleton.mp hi, rfl⟩
    · exact .inl (.inr hi)
  | claim stop =>
    obtain ⟨hmem, h⟩ := Option.ite_none_right_eq_some.mp h
    cases h
    exact ⟨fun i hi => .inl (hi.imp_right fun ⟨stop, hi⟩ => ⟨stop, List.mem_of_mem_erase hi⟩),
      fun _ _ => .inr ⟨stop, hmem⟩⟩
  | sendFull =>
    obtain ⟨-, h⟩ := Option.ite_none_right_eq_some.mp h
    cases h
    exact ⟨fun _ => .inl, fun _ h => by cases h⟩
  | _ =>
    cases h
    exact ⟨fun _ => .inl, fun _ h => by cases h⟩

lemma step_cases (h : q.step a = some q') :
    (q'.jobs = q.jobs ∧ ∀ i, q'.Listed i → q.Listed i) ∨
    ∃ j e job, (q.jobs j).step q.gate q.closed e = some job ∧ q'.jobs = update q.jobs j job ∧
      (∀ i, q'.Listed i → q.Listed i ∨ i = j ∧ e = .send) ∧ ∀ stop, e = .claim stop →
        q.Listed j := by
  cases a with
  | job j e =>
    obtain ⟨q₁, hq₁, h⟩ := Option.bind_eq_some_iff.mp h
    obtain ⟨job, hjob, rfl⟩ := Option.map_eq_some_iff.mp h
    obtain ⟨hlisted, hclaim⟩ := listed_queueStep hq₁
    exact .inr ⟨j, e, job, hjob, rfl, fun i hi => hlisted i hi, hclaim⟩
  | receive stop =>
    simp only [step] at h
    split at h
    · cases h
    next j ch hch =>
    cases h
    refine .inl ⟨rfl, fun i hi => ?_⟩
    rcases hi with hi | ⟨stop', hi⟩
    · exact .inl (hch ▸ List.mem_cons_of_mem _ hi)
    · rcases List.mem_cons.mp hi with hi | hi
      · exact .inl (hch ▸ (Prod.mk.inj hi).2 ▸ List.mem_cons_self)
      · exact .inr ⟨stop', hi⟩
  | closeGate =>
    cases h
    exact .inl ⟨rfl, fun _ => id⟩
  | start =>
    cases h
    refine .inl ?_
    split <;> exact ⟨rfl, fun _ => id⟩

lemma Inv.step (hq : q.Inv) (h : q.step a = some q') : q'.Inv := by
  rcases step_cases h with ⟨hjobs, hlisted⟩ | ⟨j, e, job, hstep, hjobs, hlisted, hclaim⟩
  · intro i
    rw [hjobs]
    exact ⟨(hq i).1, fun hi => (hq i).2 (hlisted i hi)⟩
  intro i
  rw [hjobs]
  by_cases hi : i = j
  · subst hi
    rw [update_self]
    exact ⟨LoopJob.fits_step (hq i).1 (fun stop he => (hq i).2 (hclaim stop he)) hstep,
      fun hi => LoopJob.posted_step (hq i).1 ((hlisted i hi).imp (hq i).2 And.right) hstep⟩
  · rw [update_of_ne hi]
    exact ⟨(hq i).1, fun h => (hq i).2 ((hlisted i h).resolve_right fun h => hi h.1)⟩

lemma returned_of_run {answer : Answer} (h : Run (Steps step) Always q q')
    (hq : (q.jobs j).caller = .returned answer) : (q'.jobs j).caller = .returned answer := by
  refine h.invariant (I := fun q => (q.jobs j).caller = .returned answer) hq fun hq _ hstep => ?_
  rcases step_cases hstep with ⟨hjobs, -⟩ | ⟨i, e, job, hjob, hjobs, -⟩ <;> rw [hjobs]
  · exact hq
  by_cases hi : j = i
  · subst hi
    rw [update_self]
    exact LoopJob.returned_step hq hjob
  · rwa [update_of_ne hi]

/-- **Jobs run at most once, and answers are true.** A caller that is refused has a job that never
runs, now or later; a caller that gets the result has one that ran once, to its end. -/
theorem loop_jobs_truthful {buf : ℕ} (h : Run (Steps step) Always { buf } q) (j : ℕ) :
    (q.jobs j).runs ≤ 1 ∧
    (∀ answer, (q.jobs j).caller = .returned answer → answer.Refuses →
      ∀ q', Run (Steps step) Always q q' → (q'.jobs j).runs = 0) ∧
    ((q.jobs j).caller = .returned .result → (q.jobs j).runs = 1 ∧ (q.jobs j).completed = 1) := by
  have hinv : ∀ q, Run (Steps step) Always { buf } q → (q.jobs j).Fits := by
    intro q h
    refine (h.invariant (I := Inv) (fun i => ?_) (fun hq _ hstep => hq.step hstep) j).1
    exact ⟨by simp [LoopJob.Fits], fun hi => by simp [Listed] at hi⟩
  refine ⟨?_, fun answer hanswer hrefuses q' hrun => ?_, fun hresult => ?_⟩
  · grind [LoopJob.Fits]
  · have hfits' := hinv q' (h.trans hrun)
    have hanswer' := returned_of_run hrun hanswer
    grind [LoopJob.Fits, LoopJob.After, Answer.Refuses]
  · grind [LoopJob.Fits, LoopJob.After, Answer.Refuses]

theorem loop_jobs_truthful_blocking : ∃ q : LoopQueue, (q.jobs 0).caller = .returned .result ∧
    (q.jobs 0).runs = 1 ∧ (q.jobs 0).completed = 1 := by
  obtain ⟨q, hrun, hq⟩ := exists_run (s := { buf := 1 }) step Always
    (fun q => (q.jobs 0).caller = .returned .result) [.job 0 (.enter true), .job 0 .checkGate,
      .job 0 .send, .receive false, .job 0 .recheck, .job 0 (.claim false), .job 0 .finish,
      .job 0 .observe] (by decide +kernel)
  exact ⟨q, hq, (loop_jobs_truthful hrun 0).2.2 hq⟩

end LoopQueue

end Mmokit.Engine
