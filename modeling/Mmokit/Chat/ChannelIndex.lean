/-
The index of channels under concurrent requests (`handlers_channel.go`, `handlers_register.go` and
`HandleCreate`, `HandleJoin` in `handlers.go`).

A handler reads a channel in one critical section, calls the repository without the lock, and writes
back in another section what it made of its copy. Between the two the channel may have been renamed
or unregistered, and the copy is written all the same.
-/
import Mmokit.Chat.Requests
import Mmokit.Chat.Rooms

namespace Mmokit.Chat

open Option AList Function Observed Rooms

inductive Request
  | create (ctx : Option OpContext) (slug password topic : Text) (fresh : ChannelID)
  | register (ctx : Option OpContext) (slug : Text) (kind : ChannelKind) (topic : Text)
      (slowModeSeconds : ℤ) (fresh : ChannelID)
  | rename (ctx : Option OpContext) (channelID : Option ChannelID) (newSlug : Text)
  | setTopic (ctx : Option OpContext) (channelID : Option ChannelID) (topic : Text)
  | setSlowMode (ctx : Option OpContext) (channelID : Option ChannelID) (seconds : ℤ)
  | join (ctx : Option OpContext) (slug password : Text)
  | unregister (ctx : Option OpContext) (channelID : Option ChannelID)

/-- What a request writes under the lock. -/
inductive Write
  | create (stored : Channel) (caller : UserID) (conn : ConnID)
  | register (stored : Channel)
  | rename (ch : ChannelID) (c updated : Channel)
  | update (ch : ChannelID) (updated : Channel)
  | join (ch : ChannelID) (caller : UserID) (conn : ConnID)
  | unregister (ch : ChannelID) (c : Channel)

/-- Where a request stands: each constructor is before a critical section or a repository call. -/
inductive Task
  | started (req : Request)
  | called (req : Request) (conn : ConnID) (caller : UserID)
  | read (req : Request) (caller : UserID) (ch : ChannelID) (c : Channel)
  | upserting (c : Channel) (fresh : ChannelID) (creator : Option (UserID × ConnID))
  | adding (ch : ChannelID) (next : Write)
  | updating (updated : Channel) (next : Write)
  | deleting (ch : ChannelID) (c : Channel)
  | writing (write : Write)

def Write.apply (s : Service) : Write → Service
  | .create stored caller conn => s.commitCreate stored caller conn
  | .register stored => s.putChannel stored
  | .rename ch c updated => s.commitRename ch c updated
  | .update ch updated => s.commitUpdate ch updated
  | .join ch caller conn => s.commitJoin ch caller conn
  | .unregister ch c => s.commitUnregister ch c

namespace Request

def caller (s : Service) : Request → Check (ConnID × UserID)
  | .create ctx _ _ _ _ | .join ctx _ _ => s.requirePlayer ctx
  | .register ctx _ _ _ _ _ | .rename ctx _ _ | .setTopic ctx _ _ | .setSlowMode ctx _ _
  | .unregister ctx _ => do
    let caller ← s.requireCaller ctx
    return (0, caller)

def readSection (o : ServiceOpts) (e : Env) (s : Service) (req : Request) (conn : ConnID)
    (caller : UserID) : Check Task :=
  match req with
  | .create _ slug password topic fresh => do
    let hash ← s.checkNewChannel o e caller slug password
    return .upserting ⟨nilUUID, slug, .custom, topic, 0, hash, caller⟩ fresh (some (caller, conn))
  | .register _ slug kind topic slowModeSeconds fresh => do
    Service.checkRegistered o e caller slug kind topic
    return .upserting ⟨nilUUID, slug, kind, topic, slowModeSeconds, [], nilUUID⟩ fresh none
  | .rename _ channelID _ | .setTopic _ channelID _ | .setSlowMode _ channelID _ => do
    let (ch, c) ← s.readChannel channelID
    return .read req caller ch c
  | .join _ slug password => do
    let (ch, _) ← s.checkJoined o e caller slug password
    return .adding ch (.join ch caller conn)
  | .unregister _ channelID => do
    Service.requireGlobalAdmin e caller
    let (ch, c) ← s.readChannel channelID
    return .deleting ch c

def modified (o : ServiceOpts) (ch : ChannelID) (c : Channel) : Request → Check Task
  | .rename _ _ newSlug => do
    Service.checkRenamed o c newSlug
    return .updating { c with slug := newSlug } (.rename ch c { c with slug := newSlug })
  | .setTopic _ _ topic => do
    Service.checkTopic o topic
    return .updating { c with topic := topic } (.update ch { c with topic := topic })
  | .setSlowMode _ _ seconds =>
    let updated := { c with slowModeSeconds := Service.clampSeconds seconds }
    .ok (.updating updated (.update ch updated))
  | .create .. | .register .. | .join .. | .unregister .. =>
    .error (fail .internal "not a change of a channel")

end Request

namespace Task

def after (w : World) (check : Check Task) : World × Option Task := (w, check.toOption)

def advance (o : ServiceOpts) (e : Env) (ok : Bool) (w : World) : Task → World × Option Task
  | .started req => after w (do
    let (conn, caller) ← req.caller w.service
    return .called req conn caller)
  | .called req conn caller => after w (req.readSection o e w.service conn caller)
  | .read req caller ch c => after w (do
    w.service.requireModerator e caller ch
    req.modified o ch c)
  | .upserting c fresh creator =>
    match ok, w.repo.upsertChannel c fresh with
    | true, .ok (repo, stored) =>
      ({ w with repo := repo }, some (match creator with
        | some (caller, conn) => .adding stored.channelID (.create stored caller conn)
        | none => .writing (.register stored)))
    | _, _ => (w, none)
  | .adding ch next => (w, if ok ∧ ch ∈ w.repo.channels then some (.writing next) else none)
  | .updating updated next =>
    match ok, w.repo.updateChannel updated with
    | true, .ok repo => ({ w with repo := repo }, some (.writing next))
    | _, _ => (w, none)
  | .deleting ch c =>
    if ok then ({ w with repo := w.repo.deleteChannel ch }, some (.writing (.unregister ch c)))
    else (w, none)
  | .writing write => ({ w with service := write.apply w.service }, none)

end Task

/-- The service with its requests under way. -/
structure Threads where
  world : World
  tasks : AList fun _ : ℕ => Task

inductive Act
  | submit (k : ℕ) (req : Request)
  | advance (k : ℕ) (e : Env) (ok : Bool)

namespace Threads

def step (o : ServiceOpts) (s : Threads) : Act → Option Threads
  | .submit k req =>
    match s.tasks.lookup k with
    | none => some { s with tasks := s.tasks.insert k (.started req) }
    | some _ => none
  | .advance k e ok =>
    (s.tasks.lookup k).map fun task =>
      let r := task.advance o e ok s.world
      ⟨r.1, r.2.elim (s.tasks.erase k) (s.tasks.insert k)⟩

def Quiet (s : Threads) : Prop := s.tasks.keys = []

end Threads

namespace Service

/-- The index of slugs is that of the channels, and nothing mentions a channel that does not
exist. -/
structure Coherent (s : Service) : Prop where
  slug_iff : ∀ slug ch, s.bySlug slug = some ch ↔
    ∃ c, s.channels.lookup ch = some c ∧ c.slug = slug
  members : ∀ ch u, u ∈ s.membership ch → ch ∈ s.channels
  lists : ∀ u ch, ch ∈ s.userChans u → ch ∈ s.channels
  subs : ∀ ch c, c ∈ s.subs ch → ch ∈ s.channels

def Backed (s : Service) : Prop := ∀ u ch, ch ∈ s.userChans u → u ∈ s.membership ch

variable {s : Service}

variable {channels : AList fun _ : ChannelID => Channel} {index : Text → Option ChannelID}

lemma slug_iff_insert
    (h : ∀ slug ch, index slug = some ch ↔ ∃ c, channels.lookup ch = some c ∧ c.slug = slug)
    {id : ChannelID} {new : Channel} (hslug : ∀ ch, index new.slug = some ch → ch = id)
    (hold : ∀ c, channels.lookup id = some c → c.slug = new.slug) (slug : Text) (ch : ChannelID) :
    update index new.slug (some id) slug = some ch ↔
      ∃ c, (channels.insert id new).lookup ch = some c ∧ c.slug = slug := by
  by_cases hch : ch = id
  · subst hch
    rw [lookup_insert]
    constructor
    · intro hindex
      refine ⟨new, rfl, ?_⟩
      by_contra hne
      rw [update_of_ne (Ne.symm hne)] at hindex
      obtain ⟨c, hc, rfl⟩ := (h slug ch).mp hindex
      exact hne (hold c hc).symm
    · rintro ⟨c, hc, rfl⟩
      rw [← some.inj hc, update_self]
  · rw [lookup_insert_ne hch, ← h slug ch]
    by_cases hs : slug = new.slug
    · rw [hs, update_self]
      refine iff_of_false (fun heq => hch (some.inj heq).symm) fun heq => ?_
      exact hch (hslug ch heq)
    · rw [update_of_ne hs]

lemma slug_iff_erase
    (h : ∀ slug ch, index slug = some ch ↔ ∃ c, channels.lookup ch = some c ∧ c.slug = slug)
    {id : ChannelID} {gone : Text} (hslug : ∀ ch, index gone = some ch → ch = id)
    (hold : ∀ c, channels.lookup id = some c → c.slug = gone) (slug : Text) (ch : ChannelID) :
    update index gone none slug = some ch ↔
      ∃ c, (channels.erase id).lookup ch = some c ∧ c.slug = slug := by
  by_cases hch : ch = id
  · subst hch
    refine iff_of_false (fun hindex => ?_) (by simp)
    by_cases hs : slug = gone
    · rw [hs, update_self] at hindex
      cases hindex
    · rw [update_of_ne hs] at hindex
      obtain ⟨c, hc, rfl⟩ := (h slug ch).mp hindex
      exact hs (hold c hc)
  · rw [lookup_erase_ne hch, ← h slug ch]
    by_cases hs : slug = gone
    · rw [hs]
      exact iff_of_false (by simp) fun heq => hch (hslug ch heq)
    · rw [update_of_ne hs]

end Service

/-- What the section finds is still what the request has read: the channel with its slug, and no
other channel with a slug that is taken out or put in. -/
def Write.Current (s : Service) : Write → Prop
  | .create stored _ _ | .register stored =>
    (∀ ch, s.bySlug stored.slug = some ch → ch = stored.channelID) ∧
      ∀ c, s.channels.lookup stored.channelID = some c → c.slug = stored.slug
  | .rename ch c updated =>
    s.channels.lookup ch = some c ∧ ∀ ch', s.bySlug updated.slug = some ch' → ch' = ch
  | .update ch updated => ∃ c, s.channels.lookup ch = some c ∧ c.slug = updated.slug
  | .join ch _ _ => ch ∈ s.channels
  | .unregister ch c =>
    (∀ ch', s.bySlug c.slug = some ch' → ch' = ch) ∧
      ∀ c', s.channels.lookup ch = some c' → c'.slug = c.slug

namespace Service

variable {s : Service}

lemma Coherent.of_rooms {t : Service} (h : s.Coherent) (hrooms : t.toRooms = s.toRooms)
    (hmem : ∀ ch, ch ∈ s.channels → ch ∈ t.channels)
    (hslug : ∀ slug ch, t.bySlug slug = some ch ↔
    ∃ c, t.channels.lookup ch = some c ∧ c.slug = slug) :
    t.Coherent := by
  refine ⟨hslug, fun ch u hu => hmem ch ?_, fun u ch hu => hmem ch ?_, fun ch c hc => hmem ch ?_⟩
  · rw [hrooms] at hu
    exact h.members ch u hu
  · rw [hrooms] at hu
    exact h.lists u ch hu
  · rw [hrooms] at hc
    exact h.subs ch c hc

variable {ch : ChannelID} {u : UserID} {role : Role} {conn : Option ConnID}

lemma Coherent.addMember (h : s.Coherent) (hch : ch ∈ s.channels) :
    ({ s with toRooms := s.toRooms.addMember ch u role conn } : Service).Coherent := by
  refine ⟨h.slug_iff, fun ch' v hv => ?_, fun v ch' hv => ?_, fun ch' c hc => ?_⟩
  · rcases mem_addMember.mp hv with ⟨rfl, -⟩ | hv
    · exact hch
    · exact h.members ch' v hv
  · rcases mem_userChans_addMember.mp hv with ⟨rfl, -⟩ | hv
    · exact hch
    · exact h.lists v ch' hv
  · rcases mem_subs_addMember.mp hc with hc | ⟨rfl, -⟩
    · exact h.subs ch' c hc
    · exact hch

lemma Coherent.putChannel (h : s.Coherent) {stored : Channel}
    (hslug : ∀ ch, s.bySlug stored.slug = some ch → ch = stored.channelID)
    (hold : ∀ c, s.channels.lookup stored.channelID = some c → c.slug = stored.slug) :
    (s.putChannel stored).Coherent :=
  h.of_rooms rfl (fun _ hch => (mem_insert _).mpr (.inr hch))
    (slug_iff_insert h.slug_iff hslug hold)

variable {c : Channel}

lemma Coherent.commitRename (h : s.Coherent) {updated : Channel}
    (hc : s.channels.lookup ch = some c)
    (hslug : ∀ ch', s.bySlug updated.slug = some ch' → ch' = ch) :
    (s.commitRename ch c updated).Coherent := by
  refine h.of_rooms rfl (fun _ hch => (mem_insert _).mpr (.inr hch)) fun slug ch' => ?_
  have hgone : ∀ ch', s.bySlug c.slug = some ch' → ch' = ch := by
    intro ch' hch'
    rw [(h.slug_iff c.slug ch).mpr ⟨c, hc, rfl⟩] at hch'
    exact (some.inj hch').symm
  have herased := slug_iff_erase h.slug_iff hgone fun c' hc' =>
    congrArg Channel.slug (some.inj (hc'.symm.trans hc))
  refine (slug_iff_insert herased (fun ch' hch' => ?_) (fun c' hc' => ?_) slug ch').trans ?_
  · refine hslug ch' ?_
    by_cases hsame : updated.slug = c.slug
    · rw [hsame, update_self] at hch'
      cases hch'
    · rwa [update_of_ne hsame] at hch'
  · rw [lookup_erase] at hc'
    cases hc'
  · by_cases hch : ch' = ch
    · rw [hch, lookup_insert]
      change _ ↔ ∃ c', (s.channels.insert ch updated).lookup ch = some c' ∧ c'.slug = slug
      rw [lookup_insert]
    · rw [lookup_insert_ne hch, lookup_erase_ne hch]
      change _ ↔ ∃ c', (s.channels.insert ch updated).lookup ch' = some c' ∧ c'.slug = slug
      rw [lookup_insert_ne hch]

lemma Coherent.commitUpdate (h : s.Coherent) {updated : Channel}
    (hc : s.channels.lookup ch = some c) (hslug : c.slug = updated.slug) :
    (s.commitUpdate ch updated).Coherent := by
  refine h.of_rooms rfl (fun _ hch => (mem_insert _).mpr (.inr hch)) fun slug ch' => ?_
  have hindex : s.bySlug updated.slug = some ch := (h.slug_iff _ _).mpr ⟨c, hc, hslug⟩
  have hinsert := slug_iff_insert h.slug_iff
    (fun ch' hch' => some.inj (hch'.symm.trans hindex))
    (fun c' hc' => some.inj (hc'.symm.trans hc) ▸ hslug) slug ch'
  rwa [update_eq_self_iff.mpr hindex.symm] at hinsert

lemma Backed.addMember (h : s.Backed) :
    ({ s with toRooms := s.toRooms.addMember ch u role conn } : Service).Backed := by
  intro v ch' hv
  rcases mem_userChans_addMember.mp hv with hnew | hold
  · exact mem_addMember.mpr (.inl hnew)
  · exact mem_addMember.mpr (.inr (h v ch' hold))

lemma Backed.commitUnregister (h : s.Backed) : (s.commitUnregister ch c).Backed := by
  intro v ch' hv
  obtain ⟨hold, hne⟩ := mem_userChans_dropChannel.mp hv
  have hmem := h v ch' hold
  exact mem_dropChannel.mpr ⟨fun heq => hne ⟨heq, heq ▸ hmem⟩, hmem⟩

lemma Coherent.commitUnregister (h : s.Coherent) (hb : s.Backed)
    (hslug : ∀ ch', s.bySlug c.slug = some ch' → ch' = ch)
    (hold : ∀ c', s.channels.lookup ch = some c' → c'.slug = c.slug) :
    (s.commitUnregister ch c).Coherent := by
  have hmembers : ∀ ch' u, u ∈ (s.dropChannel ch).membership ch' → ch' ∈ s.channels.erase ch := by
    intro ch' u hu
    obtain ⟨hne, hu⟩ := mem_dropChannel.mp hu
    exact mem_erase.mpr ⟨hne, h.members ch' u hu⟩
  refine ⟨slug_iff_erase h.slug_iff hslug hold, hmembers, fun u ch' hu => ?_, fun ch' c' hc' => ?_⟩
  · exact hmembers ch' u (hb.commitUnregister u ch' hu)
  · obtain ⟨hne, hc'⟩ := mem_subs_dropChannel.mp hc'
    exact mem_erase.mpr ⟨hne, h.subs ch' c' hc'⟩

end Service

lemma Write.Current.coherent {s : Service} {write : Write} (hw : write.Current s) (h : s.Coherent)
    (hb : s.Backed) : (write.apply s).Coherent ∧ (write.apply s).Backed := by
  cases write with
  | create stored caller conn =>
    have hmem : stored.channelID ∈ (s.putChannel stored).channels :=
      (mem_insert _).mpr (.inl rfl)
    exact ⟨(h.putChannel hw.1 hw.2).addMember hmem, hb.addMember⟩
  | register stored => exact ⟨h.putChannel hw.1 hw.2, hb⟩
  | rename ch c updated => exact ⟨h.commitRename hw.1 hw.2, hb⟩
  | update ch updated =>
    obtain ⟨c, hc, hslug⟩ := hw
    exact ⟨h.commitUpdate hc hslug, hb⟩
  | join ch caller conn => exact ⟨h.addMember hw, hb.addMember⟩
  | unregister ch c => exact ⟨h.commitUnregister hb hw.1 hw.2, hb.commitUnregister⟩

lemma Task.service_advance (o : ServiceOpts) (e : Env) (ok : Bool) (w : World) (task : Task) :
    (task.advance o e ok w).1.service = w.service ∨
      ∃ write, task = .writing write ∧
        (task.advance o e ok w).1.service = write.apply w.service := by
  cases task with
  | writing write => exact .inr ⟨write, rfl, rfl⟩
  | upserting c fresh creator =>
    left
    simp only [advance]
    split <;> rfl
  | updating updated next =>
    left
    simp only [advance]
    split <;> rfl
  | deleting ch c =>
    left
    simp only [advance]
    split <;> rfl
  | _ => exact .inl rfl

namespace Threads

def Fresh (s : Threads) : Act → Prop
  | .submit _ _ => True
  | .advance k _ _ => ∀ write, s.tasks.lookup k = some (.writing write) →
      write.Current s.world.service

variable {o : ServiceOpts} {s t : Threads} {a : Act}

lemma coherent_step (h : s.world.service.Coherent) (hb : s.world.service.Backed) (hK : s.Fresh a)
    (hstep : Steps (step o) s a t) : t.world.service.Coherent ∧ t.world.service.Backed := by
  cases a with
  | submit k req =>
    simp only [Steps, step] at hstep
    split at hstep
    · cases hstep
      exact ⟨h, hb⟩
    · cases hstep
  | advance k e ok =>
    obtain ⟨task, htask, rfl⟩ := map_eq_some_iff.mp hstep
    rcases task.service_advance o e ok s.world with hsame | ⟨write, rfl, hwrite⟩
    · rw [hsame]
      exact ⟨h, hb⟩
    · exact (hK write htask).coherent h hb

/-- **The index of channels under concurrent requests.** In every interleaving whose writes find
what their requests have read, the index stays coherent. -/
theorem coherent_of_run {s₀ : Threads} (h₀ : s₀.world.service.Coherent)
    (hb₀ : s₀.world.service.Backed) (h : Run (Steps (step o)) Fresh s₀ s) :
    s.world.service.Coherent := by
  refine (Run.invariant (I := fun s => s.world.service.Coherent ∧ s.world.service.Backed)
    ⟨h₀, hb₀⟩ ?_ h).1
  intro s t a hs hK hstep
  exact coherent_step hs.1 hs.2 hK hstep

def idle : Threads where
  world :=
    { service :=
        { membership := fun _ => ∅
          userChans := fun _ => ∅
          bans := fun _ => none
          online := ∅
          connIndex := fun _ => none
          subs := fun _ => ∅
          channels := ∅
          bySlug := fun _ => none
          mutes := fun _ => none
          usernames := fun _ => []
          rateBuckets := fun _ => none
          slowMode := fun _ => none
          msgIDIndex := fun _ => none }
      repo := ⟨∅, ∅⟩
      clock := 0 }
  tasks := ∅

def onward (k : ℕ) : Act := .advance k ⟨0, fun _ => false, some, fun _ _ => true⟩ true

lemma coherent_idle : idle.world.service.Coherent where
  slug_iff _ _ := iff_of_false (fun h => by cases h) (fun ⟨_, h, _⟩ => by cases h)
  members _ u h := absurd h (notMem_empty u)
  lists _ ch h := absurd h (Finset.notMem_empty ch)
  subs _ c h := absurd h (Finset.notMem_empty c)

lemma backed_idle : idle.world.service.Backed := fun _ ch h => absurd h (Finset.notMem_empty ch)

theorem coherent_of_run_register :
    ∃ s, Run (Steps (step defaultServiceOpts)) Fresh idle s ∧
      (∃ c, s.world.service.channels.lookup 7 = some c ∧ c.slug = ['a']) ∧
        ∃ c, s.world.service.channels.lookup 8 = some c ∧ c.slug = ['b'] := by
  have hrun : Run (Steps (step defaultServiceOpts)) Fresh idle idle := .refl
  have hsubmit₀ := hrun.get (a := .submit 0 (.register console ['a'] .systemPredicate [] 0 7))
    trivial rfl
  have hsubmit₁ := hsubmit₀.get (a := .submit 1 (.register console ['b'] .systemPredicate [] 0 8))
    trivial rfl
  have hcaller₀ := hsubmit₁.get (a := onward 0) (fun _ h => by cases h) rfl
  have hcaller₁ := hcaller₀.get (a := onward 1) (fun _ h => by cases h) rfl
  have hread₁ := hcaller₁.get (a := onward 1) (fun _ h => by cases h) rfl
  have hread₀ := hread₁.get (a := onward 0) (fun _ h => by cases h) rfl
  have hstored₀ := hread₀.get (a := onward 0) (fun _ h => by cases h) (by decide +kernel)
  have hstored₁ := hstored₀.get (a := onward 1) (fun _ h => by cases h) (by decide +kernel)
  have hwritten₁ := hstored₁.get (a := onward 1)
    (by
      intro write h
      cases h
      exact ⟨fun _ hindex => (by cases hindex), fun _ hlookup => (by cases hlookup)⟩) rfl
  have hwritten₀ := hwritten₁.get (a := onward 0)
    (by
      intro write h
      cases h
      exact ⟨fun _ hindex => (by cases hindex), fun _ hlookup => (by cases hlookup)⟩) rfl
  have hcoherent := coherent_of_run coherent_idle backed_idle hwritten₀
  exact ⟨_, hwritten₀, (hcoherent.slug_iff ['a'] 7).mp rfl, (hcoherent.slug_iff ['b'] 8).mp rfl⟩

/-- **A topic undoes a rename.** The topic is written last, with the slug that its request has read;
the new slug is left in the index. -/
theorem topic_undoes_rename : idle.world.service.Coherent ∧
    ∃ s, Run (Steps (step defaultServiceOpts)) Always idle s ∧ s.Quiet ∧
      ¬ s.world.service.Coherent := by
  obtain ⟨s, hrun, hquiet, hindex, hslug⟩ := exists_run (s := idle)
    (step defaultServiceOpts) Always
    (fun s => s.tasks.keys = [] ∧ s.world.service.bySlug ['b'] = some 7 ∧
      (s.world.service.channels.lookup 7).map Channel.slug = some ['a'])
    [.submit 0 (.register console ['a'] .systemPredicate [] 0 7),
      onward 0, onward 0, onward 0, onward 0,
      .submit 0 (.setTopic console (some 7) ['t']), onward 0, onward 0,
      .submit 1 (.rename console (some 7) ['b']),
      onward 1, onward 1, onward 1, onward 1, onward 1,
      onward 0, onward 0, onward 0] (by decide +kernel)
  refine ⟨coherent_idle, s, hrun, hquiet, fun h => ?_⟩
  obtain ⟨c, hc, hb⟩ := (h.slug_iff ['b'] 7).mp hindex
  rw [hc, map_some, hb] at hslug
  exact absurd hslug (by decide)

end Threads

end Mmokit.Chat
