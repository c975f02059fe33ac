/-
Deduplication when the donors of a merge arrive (`populateCell` and `mergeTransferFrameIsNewer` in
`pkg/universe/cell_transfer_executor.go`).

A native entity of the survivor stays; otherwise a later copy replaces an imported one if its epoch
is serially newer, or the same and it is a player's where the other is none, or the same and the
player's stream generation is serially newer. The generation is not kept with the entity but with
the session of its connection.

Here `C` is the type of connections: a frame's ids are taken as already resolved to the connection
that they mean on the survivor.
-/
import Mathlib.Data.Prod.Lex
import Mmokit.Library.Serial
import Mmokit.Universe.NetIDIndex

namespace Mmokit

open Function List Serial

structure MergeFrame (C : Type*) where
  networkID : NetID
  epoch : Epoch
  conn : Option C := none
  named : Bool := true
  streamGeneration : UInt32 := 0

structure LiveCopy (C : Type*) where
  entity : ℕ
  epoch : Epoch
  conn : Option C
deriving DecidableEq

structure MergeSession where
  entity : Option ℕ
  streamGeneration : UInt32
deriving DecidableEq

/-- The survivor of a merge: `mergeNativeLive` are the netIDs that were live before the first donor,
`mergeImportedLive` the entities that donors brought. -/
structure MergeSurvivor (C : Type*) where
  next : ℕ
  live : NetID → Option (LiveCopy C)
  sessions : C → Option MergeSession
  mergeNativeLive : NetID → Bool
  mergeImportedLive : NetID → Option ℕ

namespace MergeSurvivor

variable {C : Type*} [DecidableEq C]

def mergeTransferFrameIsNewer (s : MergeSurvivor C) (current : LiveCopy C)
    (incoming : MergeFrame C) :
    Bool :=
  let incomingEpoch := incoming.epoch + 1
  if incomingEpoch ≠ current.epoch then decide (Serial.After incomingEpoch current.epoch)
  else
    match incoming.conn, current.conn with
    | none, _ => false
    | some _, none => true
    | some _, some c =>
      match s.sessions c with
      | none => true
      | some session =>
        decide (Serial.After (incoming.streamGeneration + 1) session.streamGeneration)

/-- `removeMergeDonorLive`: the session goes too, if it is the entity's. -/
def removeMergeDonorLive (s : MergeSurvivor C) (n : NetID) (current : LiveCopy C) :
    MergeSurvivor C :=
  { s with
    live := update s.live n none
    sessions := match current.conn with
      | none => s.sessions
      | some c =>
        if (s.sessions c).any (·.entity = some current.entity) then update s.sessions c none
        else s.sessions }

def spawn (s : MergeSurvivor C) (frame : MergeFrame C) : MergeSurvivor C :=
  { s with
    next := s.next + 1
    live := update s.live frame.networkID (some ⟨s.next, frame.epoch + 1, frame.conn⟩)
    mergeImportedLive := update s.mergeImportedLive frame.networkID (some s.next)
    sessions := match frame.conn with
      | none => s.sessions
      | some c =>
        if frame.named ∨ (s.sessions c).isSome then
          update s.sessions c (some ⟨some s.next, frame.streamGeneration + 1⟩)
        else s.sessions }

def retain (s : MergeSurvivor C) (current : LiveCopy C) (frame : MergeFrame C) : MergeSurvivor C :=
  match frame.conn with
  | none => s
  | some c =>
    if frame.named then
      { s with
        sessions := update s.sessions c
          (some ⟨some current.entity, (s.sessions c).elim 1 (·.streamGeneration)⟩) }
    else s

def populateOne (s : MergeSurvivor C) (frame : MergeFrame C) : MergeSurvivor C :=
  match s.live frame.networkID with
  | none => s.spawn frame
  | some current =>
    if s.mergeNativeLive frame.networkID = false ∧
        s.mergeImportedLive frame.networkID = some current.entity ∧
        s.mergeTransferFrameIsNewer current frame = true then
      (s.removeMergeDonorLive frame.networkID current).spawn frame
    else s.retain current frame

def receive (s : MergeSurvivor C) (donors : List (List (MergeFrame C))) : MergeSurvivor C :=
  donors.flatten.foldl populateOne s

def generation (s : MergeSurvivor C) (c : C) : Option UInt32 :=
  (s.sessions c).map (·.streamGeneration)

def view (s : MergeSurvivor C) (n : NetID) : Option (Epoch × Option UInt32) :=
  (s.live n).map fun e => (e.epoch, e.conn.bind s.generation)

end MergeSurvivor

namespace MergeFrame

variable {C : Type*} {b b' : UInt32} {f g h : MergeFrame C}

def view (f : MergeFrame C) : Epoch × Option UInt32 :=
  (f.epoch + 1, f.conn.map fun _ => f.streamGeneration + 1)

/-- `g` is serially newer than `f`. -/
def Newer (g f : MergeFrame C) : Prop :=
  Serial.After g.epoch f.epoch ∨ g.epoch = f.epoch ∧ g.conn.isSome ∧
    (f.conn = none ∨ Serial.After g.streamGeneration f.streamGeneration)

def playerRank (b' : UInt32) (f : MergeFrame C) : ℕ :=
  f.conn.elim 0 fun _ => offset b' f.streamGeneration + 1

/-- `f` is at most as new as `g`, by the distances from the bases. -/
def AtMost (b b' : UInt32) (f g : MergeFrame C) : Prop :=
  offset b f.epoch < offset b g.epoch ∨
    offset b f.epoch = offset b g.epoch ∧ f.playerRank b' ≤ g.playerRank b'

/-- The counters of a frame lie in the half of the number space above the bases. -/
structure InWindow (b b' : UInt32) (f : MergeFrame C) : Prop where
  epoch : Serial.InWindow b f.epoch
  generation : f.conn.isSome → Serial.InWindow b' f.streamGeneration

lemma AtMost.trans (h₁ : f.AtMost b b' g) (h₂ : g.AtMost b b' h) : f.AtMost b b' h := by
  unfold AtMost at *
  omega

lemma atMost_total : f.AtMost b b' g ∨ g.AtMost b b' f := by
  unfold AtMost
  omega

lemma view_eq (h₁ : f.AtMost b b' g) (h₂ : g.AtMost b b' f) : f.view = g.view := by
  unfold AtMost at *
  have hepoch : f.epoch = g.epoch := offset_injective (b := b) (by omega)
  have hrank : f.playerRank b' = g.playerRank b' := by omega
  unfold view
  rw [hepoch]
  cases hf : f.conn <;> cases hg : g.conn <;> simp [playerRank, hf, hg] at hrank ⊢
  rw [offset_injective hrank]

lemma newer_iff (hf : f.InWindow b b') (hg : g.InWindow b b') : g.Newer f ↔ ¬ g.AtMost b b' f := by
  have hepoch : g.epoch = f.epoch ↔ offset b g.epoch = offset b f.epoch :=
    ⟨fun h => by rw [h], offset_injective⟩
  rw [Newer, AtMost, after_iff hg.epoch hf.epoch, hepoch]
  cases hfc : f.conn <;> cases hgc : g.conn <;> simp only [playerRank, hfc, hgc]
  case some.some =>
    have hgen := after_iff (hg.generation (by simp [hgc])) (hf.generation (by simp [hfc]))
    simp [hgen]
    omega
  all_goals
    simp
    try omega

end MergeFrame

namespace MergeSurvivor

variable {C : Type*} {s : MergeSurvivor C} {f g : MergeFrame C} {n : NetID} {current : LiveCopy C}
  {c : C}

def Carries (s : MergeSurvivor C) (f : MergeFrame C) : Prop :=
  ∃ entity, s.live f.networkID = some ⟨entity, f.epoch + 1, f.conn⟩ ∧
    s.mergeImportedLive f.networkID = some entity ∧
    ∀ c, f.conn = some c → s.generation c = some (f.streamGeneration + 1)

lemma Carries.view (h : s.Carries f) : s.view f.networkID = some f.view := by
  obtain ⟨entity, hlive, -, hgen⟩ := h
  rw [MergeSurvivor.view, hlive]
  cases hc : f.conn with
  | none => simp [MergeFrame.view, hc]
  | some c => simp [MergeFrame.view, hc, hgen c hc]

lemma isNewer_iff {entity : ℕ}
    (hgen : ∀ c, f.conn = some c → s.generation c = some (f.streamGeneration + 1)) :
    s.mergeTransferFrameIsNewer ⟨entity, f.epoch + 1, f.conn⟩ g = true ↔ g.Newer f := by
  have hepoch : g.epoch + 1 = f.epoch + 1 ↔ g.epoch = f.epoch := UInt32.add_left_inj 1
  unfold mergeTransferFrameIsNewer MergeFrame.Newer
  by_cases heq : g.epoch = f.epoch
  · have hself : ¬ Serial.After f.epoch f.epoch := by simp [Serial.After]
    cases hg : g.conn <;> cases hf : f.conn with
    | none => simp [heq, hself]
    | some c =>
      have hs := hgen c hf
      rw [generation, Option.map_eq_some_iff] at hs
      obtain ⟨session, hs, hsession⟩ := hs
      simp [heq, hself, hs, hsession, after_add_one_iff]
  · simp [heq, hepoch, after_add_one_iff]

variable [DecidableEq C]

lemma generation_spawn (hf : f.conn.isSome → f.named = true) : (s.spawn f).generation c =
    if f.conn = some c then some (f.streamGeneration + 1) else s.generation c := by
  unfold spawn generation
  cases hconn : f.conn with
  | none => simp
  | some d =>
    have hf := hf (by simp [hconn])
    by_cases hd : d = c
    · simp [hf, hd]
    · simp [hf, hd, Ne.symm hd]

lemma generation_retain (hf : f.conn.isSome → f.named = true) : (s.retain current f).generation c =
    if f.conn = some c then some ((s.generation c).getD 1) else s.generation c := by
  unfold retain generation
  cases hconn : f.conn with
  | none => simp
  | some d =>
    have hf := hf (by simp [hconn])
    by_cases hd : d = c
    · subst hd
      cases hs : s.sessions d <;> simp [hf, hs]
    · simp [hf, hd, Ne.symm hd]

lemma generation_remove (hc : current.conn ≠ some c) :
    (s.removeMergeDonorLive n current).generation c = s.generation c := by
  unfold removeMergeDonorLive generation
  cases hd : current.conn with
  | none => rfl
  | some d =>
    have hne : c ≠ d := fun h => hc (h ▸ hd)
    dsimp only
    split <;> simp [hne]

@[simp] lemma retain_live : (s.retain current f).live = s.live := by
  unfold retain
  split
  · rfl
  · split <;> rfl

@[simp] lemma retain_imported : (s.retain current f).mergeImportedLive = s.mergeImportedLive := by
  unfold retain
  split
  · rfl
  · split <;> rfl

lemma populateOne_native : (s.populateOne f).mergeNativeLive = s.mergeNativeLive := by
  unfold populateOne retain
  repeat' split
  all_goals rfl

lemma carries_spawn (hf : f.conn.isSome → f.named = true) : (s.spawn f).Carries f :=
  ⟨s.next, by simp [spawn], by simp [spawn], fun c hc => by rw [generation_spawn hf, if_pos hc]⟩

lemma populateOne_cases (s : MergeSurvivor C) (f : MergeFrame C) :
    (s.live f.networkID = none ∧ s.populateOne f = s.spawn f) ∨
    ∃ current, s.live f.networkID = some current ∧
      ((s.mergeNativeLive f.networkID = false ∧ s.mergeTransferFrameIsNewer current f = true ∧
          s.populateOne f = (s.removeMergeDonorLive f.networkID current).spawn f) ∨
        ((s.mergeNativeLive f.networkID = false →
            s.mergeImportedLive f.networkID = some current.entity →
              s.mergeTransferFrameIsNewer current f = false) ∧
          s.populateOne f = s.retain current f)) := by
  unfold populateOne
  cases hlive : s.live f.networkID with
  | none => exact .inl ⟨rfl, rfl⟩
  | some current =>
    refine .inr ⟨current, rfl, ?_⟩
    by_cases hnewer : s.mergeNativeLive f.networkID = false ∧
        s.mergeImportedLive f.networkID = some current.entity ∧
        s.mergeTransferFrameIsNewer current f = true
    · exact .inl ⟨hnewer.1, hnewer.2.2, if_pos hnewer⟩
    · refine .inr ⟨fun hnative himported => ?_, if_neg hnewer⟩
      simpa [hnative, himported] using hnewer

lemma generation_populateOne (hf : f.conn.isSome → f.named = true) (hc : f.conn ≠ some c)
    (hcurrent : ∀ current, s.live f.networkID = some current → current.conn ≠ some c) :
    (s.populateOne f).generation c = s.generation c := by
  rcases s.populateOne_cases f with ⟨-, h⟩ | ⟨current, hlive, ⟨-, -, h⟩ | ⟨-, h⟩⟩ <;> rw [h]
  · rw [generation_spawn hf, if_neg hc]
  · rw [generation_spawn hf, if_neg hc, generation_remove (hcurrent current hlive)]
  · rw [generation_retain hf, if_neg hc]

lemma populateOne_of_ne (hn : n ≠ f.networkID) : (s.populateOne f).live n = s.live n ∧
    (s.populateOne f).mergeImportedLive n = s.mergeImportedLive n := by
  rcases s.populateOne_cases f with ⟨-, h⟩ | ⟨current, -, ⟨-, -, h⟩ | ⟨-, h⟩⟩ <;> rw [h]
  · simp [spawn, hn]
  · simp [spawn, removeMergeDonorLive, hn]
  · exact ⟨by rw [retain_live], by rw [retain_imported]⟩

def Uses (s : MergeSurvivor C) (frames : List (MergeFrame C)) (n : NetID) (c : C) : Prop :=
  (∃ e, s.live n = some e ∧ e.conn = some c) ∨ ∃ f ∈ frames, f.networkID = n ∧ f.conn = some c

/-- A survivor before the first donor, and the frames to come. -/
structure Admissible (s : MergeSurvivor C) (frames : List (MergeFrame C))
    (b b' : UInt32) : Prop where
  native : ∀ n, s.mergeNativeLive n = (s.live n).isSome
  window : ∀ f ∈ frames, f.InWindow b b'
  named : ∀ f ∈ frames, f.conn.isSome → f.named = true
  apart : ∀ n n' c, s.Uses frames n c → s.Uses frames n' c → n = n'

/-- The generation of a native player: a session is made for it if a frame of the player arrives. -/
def nativeGeneration (s : MergeSurvivor C) (frames : List (MergeFrame C)) (c : C) : Option UInt32 :=
  if frames.any (·.conn = some c) then some ((s.generation c).getD 1) else s.generation c

/-- The survivor `s` after the frames of `L`, which arrived at `s₀`. -/
structure Merged (s₀ : MergeSurvivor C) (b b' : UInt32) (L : List (MergeFrame C))
    (s : MergeSurvivor C) : Prop where
  flags : s.mergeNativeLive = s₀.mergeNativeLive
  native : ∀ n e, s₀.live n = some e → s.live n = some e ∧
    ∀ c, e.conn = some c → s.generation c = s₀.nativeGeneration L c
  imported : ∀ n, s₀.live n = none → (s.live n = none ∧ ∀ f ∈ L, f.networkID ≠ n) ∨
    ∃ f ∈ L, f.networkID = n ∧ s.Carries f ∧ ∀ g ∈ L, g.networkID = n → g.AtMost b b' f

variable {s₀ : MergeSurvivor C} {b b' : UInt32} {frames L : List (MergeFrame C)}

lemma Merged.uses (h : Merged s₀ b b' L s) (hL : L ⊆ frames) (hlive : s.live n = some current)
    (hc : current.conn = some c) : s₀.Uses frames n c := by
  cases h₀ : s₀.live n with
  | some e =>
    have heq := (h.native n e h₀).1.symm.trans hlive
    cases heq
    exact .inl ⟨_, h₀, hc⟩
  | none =>
    rcases h.imported n h₀ with ⟨hnone, -⟩ | ⟨f, hf, rfl, ⟨entity, hentity, -⟩, -⟩
    · rw [hnone] at hlive
      cases hlive
    · rw [hentity] at hlive
      cases hlive
      exact .inr ⟨f, hL hf, rfl, hc⟩

lemma Merged.frame (h : Merged s₀ b b' L s) (hs : s₀.Admissible frames b b') (hL : L ⊆ frames)
    (hf : f ∈ frames) (hn : n ≠ f.networkID) (hc : s₀.Uses frames n c) :
    f.conn ≠ some c ∧ (s.populateOne f).generation c = s.generation c := by
  have hfc : f.conn ≠ some c := fun hfc => hn (hs.apart _ _ c hc (.inr ⟨f, hf, rfl, hfc⟩))
  refine ⟨hfc, generation_populateOne (hs.named f hf) hfc fun current hlive hcc => ?_⟩
  exact hn (hs.apart _ _ c hc (h.uses hL hlive hcc))

lemma Merged.native_step (h : Merged s₀ b b' L s) (hs : s₀.Admissible frames b b') (hL : L ⊆ frames)
    (hf : f ∈ frames) {e : LiveCopy C} (h₀ : s₀.live n = some e) :
    (s.populateOne f).live n = some e ∧ ∀ c, e.conn = some c →
      (s.populateOne f).generation c = s₀.nativeGeneration (L ++ [f]) c := by
  obtain ⟨hlive, hgen⟩ := h.native n e h₀
  simp only [nativeGeneration, any_append, any_cons, any_nil, Bool.or_false] at hgen ⊢
  by_cases hn : n = f.networkID
  · subst hn
    have hflag : s.mergeNativeLive f.networkID = true := by rw [h.flags, hs.native, h₀]; rfl
    rcases s.populateOne_cases f with ⟨hnone, -⟩ | ⟨current, hcurrent, ⟨hfalse, -⟩ | ⟨-, hretain⟩⟩
    · rw [hlive] at hnone
      cases hnone
    · rw [hflag] at hfalse
      cases hfalse
    rw [hretain, retain_live]
    refine ⟨hlive, fun c hc => ?_⟩
    rw [generation_retain (hs.named f hf), hgen c hc]
    by_cases hfc : f.conn = some c
    · rw [if_pos hfc]
      split <;> simp [hfc]
    · simp [hfc]
  · refine ⟨(populateOne_of_ne hn).1.trans hlive, fun c hc => ?_⟩
    obtain ⟨hfc, hkeeps⟩ := h.frame hs hL hf hn (.inl ⟨e, h₀, hc⟩)
    simpa [hkeeps, hfc] using hgen c hc

lemma Merged.imported_step (h : Merged s₀ b b' L s) (hs : s₀.Admissible frames b b')
    (hL : L ⊆ frames) (hf : f ∈ frames) (h₀ : s₀.live f.networkID = none) :
    ∃ g ∈ L ++ [f], g.networkID = f.networkID ∧ (s.populateOne f).Carries g ∧
      ∀ x ∈ L ++ [f], x.networkID = f.networkID → x.AtMost b b' g := by
  have hself : f ∈ L ++ [f] := by simp
  have hrefl (x : MergeFrame C) : x.AtMost b b' x := .inr ⟨rfl, le_rfl⟩
  rcases h.imported _ h₀ with ⟨hnone, hnew⟩ | ⟨g, hg, hid, hcarries, hmax⟩
  · -- the first copy
    rcases s.populateOne_cases f with ⟨-, hspawn⟩ | ⟨current, hcurrent, -⟩
    · refine ⟨f, hself, rfl, hspawn ▸ carries_spawn (hs.named f hf), fun x hx hxid => ?_⟩
      rcases mem_append.mp hx with hx | hx
      · exact absurd hxid (hnew x hx)
      · exact mem_singleton.mp hx ▸ hrefl _
    · rw [hnone] at hcurrent
      cases hcurrent
  · obtain ⟨entity, hlive, himported, hgen⟩ := hcarries
    rw [hid] at hlive himported
    have hnewer : s.mergeTransferFrameIsNewer ⟨entity, g.epoch + 1, g.conn⟩ f = true ↔
        ¬ f.AtMost b b' g :=
      (isNewer_iff hgen).trans (MergeFrame.newer_iff (hs.window g (hL hg)) (hs.window f hf))
    rcases s.populateOne_cases f
      with ⟨hnone, -⟩ | ⟨current, hcurrent, ⟨-, hyes, hstep⟩ | ⟨hno, hstep⟩⟩
    · rw [hlive] at hnone
      cases hnone
    · -- a newer copy takes the place
      rw [hlive] at hcurrent
      cases hcurrent
      have hle := MergeFrame.atMost_total.resolve_left (hnewer.mp hyes)
      refine ⟨f, hself, rfl, hstep ▸ carries_spawn (hs.named f hf), fun x hx hxid => ?_⟩
      rcases mem_append.mp hx with hx | hx
      · exact (hmax x hx hxid).trans hle
      · exact mem_singleton.mp hx ▸ hrefl _
    · -- the copy stays, and so does its generation
      rw [hlive] at hcurrent
      cases hcurrent
      have hflag : s.mergeNativeLive f.networkID = false := by rw [h.flags, hs.native, h₀]; rfl
      have hle : f.AtMost b b' g := by
        by_contra hnot
        simp [hno hflag himported] at hnewer
        exact hnot hnewer
      refine ⟨g, mem_append_left _ hg, hid, ⟨entity, ?_, ?_, fun c hc => ?_⟩, fun x hx hxid => ?_⟩
      · rw [hstep, retain_live, hid, hlive]
      · rw [hstep, retain_imported, hid, himported]
      · rw [hstep, generation_retain (hs.named f hf), hgen c hc]
        split <;> rfl
      · rcases mem_append.mp hx with hx | hx
        · exact hmax x hx hxid
        · exact mem_singleton.mp hx ▸ hle

lemma Merged.step (h : Merged s₀ b b' L s) (hs : s₀.Admissible frames b b') (hL : L ⊆ frames)
    (hf : f ∈ frames) : Merged s₀ b b' (L ++ [f]) (s.populateOne f) where
  flags := populateOne_native.trans h.flags
  native _ _ h₀ := h.native_step hs hL hf h₀
  imported n h₀ := by
    by_cases hn : n = f.networkID
    · subst hn
      exact .inr (h.imported_step hs hL hf h₀)
    obtain ⟨hlive, himported⟩ := populateOne_of_ne (s := s) hn
    rcases h.imported n h₀ with ⟨hnone, hnew⟩ | ⟨g, hg, rfl, ⟨entity, hentity, himp, hgen⟩, hmax⟩
    · refine .inl ⟨hlive.trans hnone, fun x hx => ?_⟩
      rcases mem_append.mp hx with hx | hx
      · exact hnew x hx
      · exact mem_singleton.mp hx ▸ Ne.symm hn
    · refine .inr ⟨g, mem_append_left _ hg, rfl, ⟨entity, hlive.trans hentity,
        himported.trans himp, fun c hc => ?_⟩, fun x hx hxid => ?_⟩
      · exact (h.frame hs hL hf hn (.inr ⟨g, hL hg, rfl, hc⟩)).2.trans (hgen c hc)
      · rcases mem_append.mp hx with hx | hx
        · exact hmax x hx hxid
        · exact absurd (mem_singleton.mp hx ▸ hxid).symm hn

lemma merged_foldl (hs : s₀.Admissible frames b b') {rest : List (MergeFrame C)}
    (hL : L ⊆ frames) (hrest : rest ⊆ frames) (h : Merged s₀ b b' L s) :
    Merged s₀ b b' (L ++ rest) (rest.foldl populateOne s) := by
  induction rest generalizing L s with
  | nil => simpa using h
  | cons f rest ih =>
    have hf := hrest mem_cons_self
    have hrest := subset_of_cons_subset hrest
    have hstep := ih (append_subset.mpr ⟨hL, by simpa using hf⟩) hrest (h.step hs hL hf)
    simpa using hstep

lemma merged_receive {donors : List (List (MergeFrame C))}
    (hs : s.Admissible donors.flatten b b') : Merged s b b' donors.flatten (s.receive donors) := by
  have hstart : Merged s b b' [] s :=
    ⟨rfl, fun n e h₀ => ⟨h₀, fun c _ => by simp [nativeGeneration]⟩,
      fun n h₀ => .inl ⟨h₀, fun f hf => absurd hf not_mem_nil⟩⟩
  exact merged_foldl hs (nil_subset _) (List.Subset.refl _) hstart

/-- **The order of the donors does not matter.** A native entity stays, and of the copies that
arrive one is carried than which none is newer. -/
theorem merge_order_independent {donors donors' : List (List (MergeFrame C))}
    (hs : s.Admissible donors.flatten b b') (hperm : donors.Perm donors') (n : NetID) :
    (s.receive donors).view n = (s.receive donors').view n ∧
    (∀ e, s.live n = some e → (s.receive donors).live n = some e) ∧
    (s.live n = none → ∀ f ∈ donors.flatten, f.networkID = n →
      ∃ best ∈ donors.flatten, best.networkID = n ∧ (s.receive donors).view n = some best.view ∧
        ∀ g ∈ donors.flatten, g.networkID = n → ¬ g.Newer best) := by
  have hflat : donors.flatten.Perm donors'.flatten := hperm.flatten
  have hs' : s.Admissible donors'.flatten b b' :=
    ⟨hs.native, fun f hf => hs.window f (hflat.mem_iff.mpr hf),
      fun f hf => hs.named f (hflat.mem_iff.mpr hf), fun n n' c => by
        simpa only [Uses, hflat.mem_iff] using hs.apart n n' c⟩
  have h := merged_receive hs
  have h' := merged_receive hs'
  refine ⟨?_, fun e h₀ => (h.native n e h₀).1, fun h₀ f hf hid => ?_⟩
  · cases h₀ : s.live n with
    | some e =>
      obtain ⟨hlive, hgen⟩ := h.native n e h₀
      obtain ⟨hlive', hgen'⟩ := h'.native n e h₀
      rw [view, view, hlive, hlive']
      cases hc : e.conn with
      | none => simp [hc]
      | some c => simp [hc, hgen c hc, hgen' c hc, nativeGeneration, hflat.any_eq]
    | none =>
      rcases h.imported n h₀ with ⟨hnone, hnew⟩ | ⟨f, hf, rfl, hcarries, hmax⟩ <;>
        rcases h'.imported _ h₀ with ⟨hnone', hnew'⟩ | ⟨f', hf', hid', hcarries', hmax'⟩
      · rw [view, view, hnone, hnone']
        rfl
      · exact absurd hid' (hnew f' (hflat.mem_iff.mpr hf'))
      · exact absurd rfl (hnew' f (hflat.mem_iff.mp hf))
      · rw [hcarries.view, ← hid', hcarries'.view, MergeFrame.view_eq
          (hmax' f (hflat.mem_iff.mp hf) rfl) (hmax f' (hflat.mem_iff.mpr hf') hid')]
  · rcases h.imported n h₀ with ⟨-, hnew⟩ | ⟨best, hbest, rfl, hcarries, hmax⟩
    · exact absurd hid (hnew f hf)
    · refine ⟨best, hbest, rfl, hcarries.view, fun g hg hgid => ?_⟩
      rw [MergeFrame.newer_iff (hs.window _ hbest) (hs.window g hg), not_not]
      exact hmax g hg hgid

def empty : MergeSurvivor ℕ := ⟨0, fun _ => none, fun _ => none, fun _ => false, fun _ => none⟩

theorem merge_order_independent_player : (empty.receive [[⟨7, 1, some 0, true, 4⟩],
    [⟨7, 1, some 0, true, 3⟩]]).view 7 = some (2, some 5) := by
  have hs : empty.Admissible
      (flatten [[⟨7, 1, some 0, true, 4⟩], [⟨7, 1, some 0, true, 3⟩]]) 0 0 := by
    refine ⟨fun _ => rfl, fun f hf => ?_, by decide, by simp [Uses, empty]⟩
    simp only [flatten_cons, flatten_nil, cons_append, nil_append, mem_cons,
      not_mem_nil, or_false] at hf
    rcases hf with rfl | rfl
    · exact ⟨by decide, fun _ => by decide⟩
    · exact ⟨by decide, fun _ => by decide⟩
  rw [(merge_order_independent hs (List.Perm.swap _ _ _) 7).1]
  decide +kernel

/-- Three copies whose epochs lie all around the circle; two entities of one connection; and two
copies of a player of which only one names the user. -/
theorem merge_order_matters :
    (let f : MergeFrame ℕ := ⟨7, 0, none, true, 0⟩
      let g : MergeFrame ℕ := ⟨7, 0x55555555, none, true, 0⟩
      let h : MergeFrame ℕ := ⟨7, 0xAAAAAAAA, none, true, 0⟩
      Serial.After g.epoch f.epoch ∧ Serial.After h.epoch g.epoch ∧ Serial.After f.epoch h.epoch ∧
        (empty.receive [[f], [g], [h]]).view 7 ≠ (empty.receive [[g], [h], [f]]).view 7) ∧
    (let f : MergeFrame ℕ := ⟨7, 1, some 0, true, 3⟩
      let g : MergeFrame ℕ := ⟨8, 1, some 0, true, 4⟩
      (empty.receive [[f], [g]]).view 7 ≠ (empty.receive [[g], [f]]).view 7) ∧
    (let f : MergeFrame ℕ := ⟨7, 1, some 0, true, 3⟩
      let g : MergeFrame ℕ := ⟨7, 1, some 0, false, 4⟩
      (empty.receive [[f], [g]]).view 7 ≠ (empty.receive [[g], [f]]).view 7) := by
  decide +kernel

end MergeSurvivor

end Mmokit
