import AuditGateway.Analysis.Invariant
import AuditGateway.Framework.Lists

/-!
# What an acknowledgement stands for

An execution acknowledges its message at six control points, and at each of them the
durable state says why: the task is finished, with its follow-up published, or a later
message replaces this one (`Handled`). The entries that are acknowledged without any
such record are those that name no task: an unknown stage, which is dropped where the
batch is read, and a blank trace id.
-/

namespace AuditGateway.Analysis

open AuditGateway.Framework AuditGateway.Python

/-- The stream and id of an entry, by which it is acknowledged. -/
def Entry.ref (en : Entry) : String × MessageId :=
  (en.stream, en.id)

/-- The entry that a message of the worker names as its source. -/
def Payload.source (p : Payload) : Option (String × MessageId) :=
  match p.hints with
  | some (.dumped fields) =>
    match fields.lookup "source_stream", fields.lookup "source_message_id" with
    | some (.text stream), some (.id id) => some (stream, id)
    | _, _ => none
  | _ => none

/-- Why a message may be acknowledged. -/
def Durable.Handled (s : Durable) (m : StreamMessage) : Prop :=
  s.HasStatus m.key .failedTerminal ∨
    (s.HasStatus m.key .succeeded ∧ (m.envelope.stage = .core → s.Settled m.envelope.traceId)) ∨
    s.Replaced m

structure Durable.Accounts (s : Durable) : Prop where
  nodup : (s.redis.entries.map Entry.ref).Nodup
  known {ref : String × MessageId} : ref ∈ s.redis.acked → ref ∈ s.redis.entries.map Entry.ref
  published {κ : TaskKey} {row : AnalysisTask} : s.tasks κ = some row → s.Published κ
  handled {en : Entry} {m : StreamMessage} : en ∈ s.redis.entries → messageFromEntry en = .ok m →
    s.redis.Acked en → m.envelope.traceId ≠ "" → s.Handled m
  /-- A dead letter names an entry of a work stream that names a task. -/
  source {en : Entry} : en ∈ s.redis.entries → en.stream = streamDlq →
    ∃ en' ∈ s.redis.entries, en'.key ≠ none ∧ en.payload.source = some en'.ref

variable {d : Decoding} {e : ExecId} {job : Job} {φ : Phase} {s s' : Durable} {w : World}
  {c c' : PhaseConfig} {a : Step}

/-! ## Entries and their tasks -/

variable {en : Entry}

theorem Durable.Accounts.eq_of_ref (hs : s.Accounts) {en' : Entry} (h : en ∈ s.redis.entries)
    (h' : en' ∈ s.redis.entries) (href : en.ref = en'.ref) : en = en' :=
  List.inj_on_of_nodup_map hs.nodup h h' href

variable {m : StreamMessage}

theorem key_ne_none_of_message (h : messageFromEntry en = .ok m) :
    en.key ≠ none ↔ m.envelope.traceId ≠ "" := by
  by_cases ht : m.envelope.traceId = ""
  · simp [Entry.key, h, ht]
  · simp [key_of_message h ht, ht]

variable {κ : TaskKey}

theorem message_of_key (h : en.key = some κ) :
    ∃ m, messageFromEntry en = .ok m ∧ m.key = κ ∧ m.envelope.traceId ≠ "" := by
  unfold Entry.key at h
  split at h
  · rename_i m hm
    split at h
    · cases h
    · rename_i ht
      exact ⟨m, hm, Option.some.inj h, ht⟩
  · cases h

theorem traceId_ne_of_key (h : en.key = some κ) : κ.traceId ≠ "" := by
  obtain ⟨m, _, rfl, hne⟩ := message_of_key h
  exact hne

theorem ref_of_message (h : messageFromEntry en = .ok m) :
    en.ref = (m.streamName, m.messageId) := by
  obtain ⟨h1, h2, _⟩ := messageFromEntry_eq_ok h
  rw [h1, h2]
  rfl

variable {stream : String} {id : MessageId}

theorem ref_fresh {r : Redis} (h : r.Fresh stream id) :
    (stream, id) ∉ r.entries.map Entry.ref := by
  intro hmem
  obtain ⟨en, hen, href⟩ := List.mem_map.1 hmem
  obtain ⟨hs, hid⟩ := Prod.mk.inj href
  have hlt := h en hen hs
  rw [hid] at hlt
  omega

/-! ## The three kinds of steps -/

theorem Durable.Handled.evolves (h : s.Handled m) (hev : Evolves s s')
    (hset : ∀ t, s.HasStatus ⟨t, .core⟩ .succeeded → s.Settled t → s'.Settled t) : s'.Handled m := by
  obtain h | ⟨h, h'⟩ | h := h
  · exact .inl (h.evolves rfl hev)
  · refine .inr (.inl ⟨h.evolves rfl hev, fun hcore => hset _ ?_ (h' hcore)⟩)
    rw [← hcore]
    exact h
  · exact .inr (.inr (h.evolves hev))

theorem Durable.Accounts.of_tables (hs : s.Accounts) (hev : Evolves s s')
    (hset : ∀ t, s.HasStatus ⟨t, .core⟩ .succeeded → s.Settled t → s'.Settled t)
    (hredis : s'.redis = s.redis) (hnew : ∀ {κ row}, s'.tasks κ = some row → s.Published κ) : s'.Accounts := by
  refine ⟨hredis ▸ hs.nodup, ?_, ?_, ?_, ?_⟩
  · rw [hredis]
    exact hs.known
  · intro κ row hrow
    exact (hnew hrow).evolves hev
  · rw [hredis]
    intro en m hen hm hack hne
    exact (hs.handled hen hm hack hne).evolves hev hset
  · rw [hredis]
    exact hs.source

theorem Durable.Accounts.publish (hs : s.Accounts) {payload : Payload}
    (hid : s.redis.Fresh stream id) (hsource : stream = streamDlq →
      ∃ en' ∈ s.redis.entries, en'.key ≠ none ∧ payload.source = some en'.ref)
    (hev : Evolves s { s with redis := s.redis.xadd ⟨stream, id, payload⟩ })
    (hset : ∀ t, s.HasStatus ⟨t, .core⟩ .succeeded → s.Settled t →
      Durable.Settled { s with redis := s.redis.xadd ⟨stream, id, payload⟩ } t) :
    Durable.Accounts { s with redis := s.redis.xadd ⟨stream, id, payload⟩ } := by
  have hfresh := ref_fresh hid
  refine ⟨?_, ?_, ?_, ?_, ?_⟩
  · simp only [Redis.xadd, List.map_append, List.map_cons, List.map_nil]
    refine List.nodup_append.2 ⟨hs.nodup, by simp, ?_⟩
    rintro ref href ref' href' rfl
    obtain rfl := List.mem_singleton.1 href'
    exact hfresh href
  · intro ref href
    simp only [Redis.xadd, List.map_append]
    exact List.mem_append_left _ (hs.known href)
  · intro κ row hrow
    exact (hs.published hrow).evolves hev
  · intro en m hen hm hack hne
    obtain hen | hen := List.mem_append.1 hen
    · exact (hs.handled hen hm hack hne).evolves hev hset
    · obtain rfl := List.mem_singleton.1 hen
      exact absurd (hs.known hack) hfresh
  · intro en hen hdlq
    obtain hen | hen := List.mem_append.1 hen
    · obtain ⟨en', hen', h⟩ := hs.source hen hdlq
      exact ⟨en', List.mem_append_left _ hen', h⟩
    · obtain rfl := List.mem_singleton.1 hen
      obtain ⟨en', hen', h⟩ := hsource hdlq
      exact ⟨en', List.mem_append_left _ hen', h⟩

theorem Durable.Accounts.ack (hs : s.Accounts) {en₀ : Entry}
    (hen₀ : en₀ ∈ s.redis.entries) (href : en₀.ref = (stream, id))
    (hhandled : ∀ {m}, messageFromEntry en₀ = .ok m → m.envelope.traceId ≠ "" → s.Handled m) :
    Durable.Accounts { s with redis := s.redis.xack stream id } := by
  refine ⟨hs.nodup, ?_, hs.published, ?_, hs.source⟩
  · intro ref hmem
    obtain rfl | hmem := List.mem_cons.1 hmem
    · exact href ▸ List.mem_map_of_mem hen₀
    · exact hs.known hmem
  · intro en m hen hm hack hne
    obtain hack | hack := List.mem_cons.1 hack
    · obtain rfl := hs.eq_of_ref hen hen₀ (Eq.trans hack href.symm)
      exact hhandled hm hne
    · exact hs.handled hen hm hack hne

/-! ## Steps of executions and from outside -/

theorem handled_of_acks (hφ : φ.acks = true) (hl : φ.Local e job w) (hs : strip job.traceId = job.traceId)
    (hne : job.traceId ≠ "") : w.durable.Handled job.message := by
  cases φ with
  | ackInvalid => exact absurd (hs.symm.trans hl.2) hne
  | recoverAck =>
    obtain ⟨_, _, hst, hcore, hpub⟩ := hl
    exact .inr (.inl ⟨hst, fun _ _ _ _ => hpub⟩)
  | ackDuplicate =>
    obtain ⟨_, h | h⟩ := hl
    · exact .inl h
    · exact .inr (.inl h)
  | ackProcessed result => exact .inr (.inl hl.2)
  | ackTerminal err => exact .inl hl.2.1
  | ackRetry err => exact .inr (.inr hl.2)
  | _ => cases hφ

theorem source_dlqMessage (m : StreamMessage) (attempt : Nat) (code message : String) (now : Time) :
    (dlqMessage m attempt code message now).source = some (m.streamName, m.messageId) := rfl

theorem source_of_publishes {payload : Payload} (hd : Delivered job s)
    (hne : φ.live = true → job.traceId ≠ "") (hφ : φ.publishes job = some (stream, payload))
    (hdlq : stream = streamDlq) :
    ∃ en' ∈ s.redis.entries, en'.key ≠ none ∧ payload.source = some en'.ref := by
  obtain ⟨task, err, now, rfl⟩ := hd.publishes_dlq hφ hdlq
  obtain ⟨en, hen, -, hm⟩ := hd
  obtain ⟨_, rfl⟩ := Prod.mk.inj (Option.some.inj hφ)
  refine ⟨en, hen, (key_ne_none_of_message hm).2 (hne rfl), ?_⟩
  rw [source_dlqMessage, ref_of_message hm]

theorem Change.published (h : Change e job φ s s') (hs : s.Accounts) (hd : Delivered job s)
    (hne : φ.live = true → job.traceId ≠ "") {row : AnalysisTask}
    (hrow : s'.tasks κ = some row) : s.Published κ := by
  cases h with
  | refl | processing | enqueued | publish | ack => exact hs.published hrow
  | insert =>
    obtain ⟨rfl, _⟩ | ⟨_, hrow⟩ := update_eq_some hrow
    · exact hd.published (hne rfl)
    · exact hs.published hrow
  | claim hold | succeeded _ _ hold | terminal _ _ hold | retryable _ _ hold =>
    obtain ⟨rfl, _⟩ | ⟨_, hrow⟩ := update_eq_some hrow
    · exact hs.published hold
    · exact hs.published hrow

theorem Change.accounts (h : Change e job φ w.durable s') (hs : w.durable.Accounts) (hsound : Sound w.durable)
    (hd : Delivered job w.durable) (hne : φ.live = true → job.traceId ≠ "") (hl : φ.Local e job w) :
    s'.Accounts := by
  have hev := h.evolves
  have hset : ∀ t, w.durable.HasStatus ⟨t, .core⟩ .succeeded → w.durable.Settled t → s'.Settled t :=
    fun t => h.settled hsound hd hne hl
  have hpub : ∀ {κ row}, s'.tasks κ = some row → w.durable.Published κ :=
    fun hrow => h.published hs hd hne hrow
  cases h with
  | refl => exact hs
  | publish hφ hid => exact hs.publish hid (source_of_publishes hd hne hφ) hev hset
  | ack hφ =>
    obtain ⟨en, hen, _, hm⟩ := hd
    refine hs.ack hen (ref_of_message hm) fun hm' hne' => ?_
    obtain rfl := Except.ok.inj (hm.symm.trans hm')
    exact handled_of_acks hφ hl (strip_traceId hm) hne'
  | _ => exact hs.of_tables hev hset rfl hpub

theorem Outside.accounts {act : EnvAction} (h : Outside act s s') (hs : s.Accounts) : s'.Accounts := by
  have hev := h.evolves
  have hset : ∀ t, s.HasStatus ⟨t, .core⟩ .succeeded → s.Settled t → s'.Settled t :=
    fun t _ => h.settled
  cases h with
  | tick => exact hs
  | capture | queued => exact hs.of_tables hev hset rfl fun hrow => hs.published hrow
  | publish hne hid => exact hs.publish hid (fun h => absurd h hne) hev hset
  | discard hen _ hm =>
    refine hs.ack hen rfl fun hm' => ?_
    rw [hm] at hm'
    cases hm'

theorem accounts_reachable {ok : PhaseConfig → Step → Prop} (h : (phases d).ReachableBy ok c) :
    c.world.durable.Accounts := by
  refine h.induct (P := fun c => c.world.durable.Accounts) ?_ fun q a q' hq hs _ hstep => ?_
  · rintro q ⟨hw, _, _⟩
    have hentries : q.world.durable.redis.entries = [] := hw.entries
    have hacked : q.world.durable.redis.acked = [] := hw.acked
    have htasks : q.world.durable.tasks = fun _ => none := hw.tasks
    refine ⟨by simp [hentries], ?_, ?_, ?_, ?_⟩ <;>
    · intros
      simp_all
  · have hinv := inv_reachable hq
    cases move_of_step hinv hstep with
    | exec hth _ _ hlocal _ hdelivered hlive hchange =>
      exact hchange.accounts hs hinv.sound hdelivered hlive hlocal
    | outside houtside => exact houtside.accounts hs
    | crash _ hworld | start _ _ _ hworld =>
      rw [hworld]
      exact hs

/-! ## No work is lost -/

/-- A message for the task is in a work stream and not acknowledged. -/
def Durable.Pending (s : Durable) (κ : TaskKey) : Prop :=
  ∃ en ∈ s.redis.entries, en.stream ≠ streamDlq ∧ en.key = some κ ∧ ¬ s.redis.Acked en

theorem Durable.Accounts.finished (hs : s.Accounts) (hp : s.Published κ) (hnot : ¬ s.Pending κ) :
    s.HasStatus κ .failedTerminal ∨
      (s.HasStatus κ .succeeded ∧ (κ.stage = .core → s.Settled κ.traceId)) := by
  obtain ⟨en, hen, ⟨hstream, hκ⟩, hlast⟩ := exists_last hp
  obtain ⟨m, hm, rfl, hne⟩ := message_of_key hκ
  have hack : s.redis.Acked en := by
    by_contra hack
    exact hnot ⟨en, hen, hstream, hκ, hack⟩
  obtain h | h | ⟨l₁, l₂, en₁, en₂, hl, hen₁, hm₁, hen₂, hstream₂, hκ₂, _⟩ := hs.handled hen hm hack hne
  · exact .inl h
  · exact .inr h
  · -- The replacement comes later in the list, but `en` is the last one.
    obtain rfl : en₁ = en := by
      refine hs.eq_of_ref (by rw [hl]; exact List.mem_append_left _ hen₁) hen ?_
      rw [ref_of_message hm₁, ref_of_message hm]
    rw [(messageFromEntry_eq_ok hm).1] at hstream₂
    have hin := hlast l₁ l₂ hl ⟨en₂, hen₂, hstream₂ ▸ hstream, hκ₂⟩
    have hnodup := List.Nodup.of_map _ hs.nodup
    rw [hl] at hnodup
    exact absurd rfl ((List.nodup_append.1 hnodup).2.2 _ hen₁ _ hin)

/-- In every reachable state: an unfinished task has a message that is not acknowledged,
and a trace whose core stage has succeeded and requires enrichment has an enrichment
message, or a core message that is not acknowledged. -/
theorem no_work_lost {c : WorkerConfig} (hc : (workers d).Reachable c) :
    (∀ κ row, c.world.durable.tasks κ = some row → row.status ≠ .succeeded → row.status ≠ .failedTerminal →
      c.world.durable.Pending κ) ∧
    (∀ t r, c.world.durable.traces t = some r → r.enrichmentRequired = true →
      c.world.durable.HasStatus ⟨t, .core⟩ .succeeded →
      c.world.durable.Published ⟨t, .enrichment⟩ ∨ c.world.durable.Pending ⟨t, .core⟩) := by
  obtain ⟨p, hp, rfl⟩ := phases_of_workers hc
  have hs := accounts_reachable hp
  refine ⟨?_, ?_⟩
  · intro κ row hrow hsucc hterm
    by_contra hnot
    obtain ⟨row', hrow', hst⟩ | ⟨⟨row', hrow', hst⟩, _⟩ := hs.finished (hs.published hrow) hnot
    · obtain rfl := Option.some.inj (hrow.symm.trans hrow')
      exact hterm hst
    · obtain rfl := Option.some.inj (hrow.symm.trans hrow')
      exact hsucc hst
  · intro t r hr hreq hst
    by_contra hnot
    obtain ⟨hpub, hpend⟩ := not_or.1 hnot
    obtain ⟨row, hrow, hstatus⟩ := hst
    obtain ⟨row', hrow', hst'⟩ | ⟨_, hset⟩ := hs.finished (hs.published hrow) hpend
    · obtain rfl := Option.some.inj (hrow.symm.trans hrow')
      rw [hstatus] at hst'
      cases hst'
    · exact hpub (hset rfl r hr hreq)

def interruptedRetry : List Step :=
  captured "t" ++ [.start 0 { entry := bareEntry streamCore ⟨1, 0⟩ "t", workerId := "a" }] ++
  List.replicate 5 (.exec 0 {}) ++ [.exec 0 { fault := .before ⟨"ValueError", ""⟩ }] ++
  List.replicate 6 (.exec 0 { id := ⟨2, 0⟩ }) ++ [.crash 0]

theorem no_work_lost_interrupted : ∃ c, runWorkers .bare interruptedRetry = some c ∧
    c.world.durable.HasStatus ⟨"t", .core⟩ .failedRetryable ∧ c.world.durable.Pending ⟨"t", .core⟩ := by
  have hrun : ((runWorkers .bare interruptedRetry).map fun c =>
      (c.world.durable.tasks ⟨"t", .core⟩).map AnalysisTask.status) = some (some .failedRetryable) := by
    decide
  obtain ⟨c, hc, hx⟩ := Option.map_eq_some_iff.1 hrun
  obtain ⟨row, hrow, hst⟩ := Option.map_eq_some_iff.1 hx
  refine ⟨c, hc, ⟨row, hrow, hst⟩, (no_work_lost (reachable_runWorkers hc)).1 _ row hrow ?_ ?_⟩
  · rw [hst]
    decide
  · rw [hst]
    decide

/-! ## Entries without a record -/

/-- What the acknowledgement of an entry may rest on: its task is finished, or has a
message that replaces this one, or the dead letter queue has a copy. -/
def Durable.AccountedFor (s : Durable) (en : Entry) : Prop :=
  (∃ m, messageFromEntry en = .ok m ∧ (s.Terminal m.key ∨ s.Replaced m)) ∨
    ∃ en' ∈ s.redis.entries, en'.stream = streamDlq ∧ en'.payload.source = some en.ref

theorem Durable.Handled.accounted (h : s.Handled m) : s.Terminal m.key ∨ s.Replaced m := by
  obtain h | ⟨h, _⟩ | h := h
  · exact .inl (h.terminal rfl)
  · exact .inl (h.terminal rfl)
  · exact .inr h

/-- In every reachable state, an acknowledged entry of a work stream is accounted for if
and only if it names a task: its stage is not unknown and its trace id not blank. -/
theorem acknowledged_accounted_iff {c : WorkerConfig} (hc : (workers d).Reachable c) {en : Entry}
    (hen : en ∈ c.world.redis.entries) (hack : c.world.redis.Acked en) :
    c.world.durable.AccountedFor en ↔ en.key ≠ none := by
  obtain ⟨p, hp, rfl⟩ := phases_of_workers hc
  have hs := accounts_reachable hp
  constructor
  · rintro (⟨m, hm, ⟨row, hrow, _⟩ | hrep⟩ | ⟨en', hen', hdlq, hsource⟩)
    · -- Tasks are only created for entries that name them.
      obtain ⟨en₁, _, _, hκ⟩ := hs.published hrow
      exact (key_ne_none_of_message hm).2 (traceId_ne_of_key hκ)
    · obtain ⟨_, _, _, en₂, _, _, _, _, _, hκ, _⟩ := hrep
      exact (key_ne_none_of_message hm).2 (traceId_ne_of_key hκ)
    · obtain ⟨en₁, hen₁, hκ, hsource₁⟩ := hs.source hen' hdlq
      rw [hsource] at hsource₁
      obtain rfl := hs.eq_of_ref hen hen₁ (Option.some.inj hsource₁)
      exact hκ
  · intro hκ
    obtain ⟨κ, hκ⟩ := Option.ne_none_iff_exists'.1 hκ
    obtain ⟨m, hm, _, hne⟩ := message_of_key hκ
    exact .inl ⟨m, hm, (hs.handled hen hm hack hne).accounted⟩

def processed : List Step :=
  captured "t" ++ [.start 0 { entry := bareEntry streamCore ⟨1, 0⟩ "t", workerId := "a" }] ++
    List.replicate 12 (.exec 0 {})

theorem acknowledged_accounted_processed : ∃ c, runWorkers .bare processed = some c ∧
    c.world.redis.Acked (bareEntry streamCore ⟨1, 0⟩ "t") ∧
    c.world.durable.AccountedFor (bareEntry streamCore ⟨1, 0⟩ "t") := by
  have hrun : ((runWorkers .bare processed).map fun c =>
      (decide (bareEntry streamCore ⟨1, 0⟩ "t" ∈ c.world.redis.entries),
        decide (c.world.redis.Acked (bareEntry streamCore ⟨1, 0⟩ "t")))) = some (true, true) := by
    decide
  obtain ⟨c, hc, hx⟩ := Option.map_eq_some_iff.1 hrun
  obtain ⟨hen, hack⟩ := Prod.mk.inj hx
  have hack := of_decide_eq_true hack
  exact ⟨c, hc, hack, (acknowledged_accounted_iff (reachable_runWorkers hc) (of_decide_eq_true hen) hack).2
    (by decide)⟩

def unknownStage : Entry :=
  ⟨streamCore, ⟨1, 0⟩, { traceId := some "t", stage := some "audit" }⟩

/-- The entry with an unknown stage is read in a batch, and acknowledged there. Nothing
is in the dead letter queue, and nothing accounts for the entry. -/
theorem unknown_stage_dropped : (messagesFromEntries [unknownStage]).2 = [unknownStage.id] ∧
    ∃ c, (workers .bare).Reachable c ∧ unknownStage ∈ c.world.redis.entries ∧
      c.world.redis.Acked unknownStage ∧ (∀ en ∈ c.world.redis.entries, en.stream ≠ streamDlq) ∧
      ¬ c.world.durable.AccountedFor unknownStage := by
  refine ⟨by decide, ?_⟩
  have hrun : ((runWorkers .bare [.env (.publish streamCore unknownStage.payload ⟨1, 0⟩),
      .env (.discard unknownStage)]).map fun c =>
        (c.world.redis.entries, decide (c.world.redis.Acked unknownStage))) =
      some ([unknownStage], true) := by decide
  obtain ⟨c, hc, hx⟩ := Option.map_eq_some_iff.1 hrun
  obtain ⟨hentries, hack⟩ := Prod.mk.inj hx
  have hnone : ∀ en ∈ c.world.redis.entries, en.stream ≠ streamDlq := by
    rw [hentries]
    decide
  refine ⟨c, reachable_runWorkers hc, by simp [hentries], of_decide_eq_true hack, hnone, ?_⟩
  rintro (⟨m, hm, _⟩ | ⟨en, hen, hdlq, _⟩)
  · have herr : messageFromEntry unknownStage = .error ⟨streamCore, "audit"⟩ := by rfl
    rw [herr] at hm
    cases hm
  · exact hnone en hen hdlq

end AuditGateway.Analysis
