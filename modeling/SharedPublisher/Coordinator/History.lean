import SharedPublisher.Coordinator.Sections

/-!
# What the coordinator remembers of its history

Two invariants of every run.  `Tidy` is about one state: waiting requests carry the chains they
name, an active instance is stored under the hexadecimal text of its bytes, and its votes are yes
votes of some but not all of its chains.  `OpenSince` ties an active instance to the history: at
which moment it was started, that nothing was decided about it since, and that its vote map holds
exactly the votes recorded since.
-/

namespace SharedPublisher

/-! ## Undecided instances -/

/-- An instance that waits for votes: its chains are distinct and at least two, and its votes are
yes votes of some but not all of them. -/
structure ActiveXt.Undecided (xt : ActiveXt) : Prop where
  nodup : xt.chains.Nodup
  two_le : 2 ≤ xt.chains.length
  votes_mem : ∀ c ∈ xt.votes, c ∈ xt.chains
  missing : ∃ c ∈ xt.chains, c ∉ xt.votes
  votes_true : ∀ c v, xt.votes.lookup c = some v → v = true

namespace ActiveXt.Undecided

variable {xt : ActiveXt}

/-- After one more vote of a participant, there are as many votes as chains exactly when every chain
has voted. -/
theorem length_le_card_iff (h : xt.Undecided) {c : ChainId} (hc : c ∈ xt.chains) :
    xt.chains.length ≤ (xt.votes.insert c true).keys.card ↔
      ∀ c' ∈ xt.chains, c' = c ∨ c' ∈ xt.votes := by
  have hsub : (xt.votes.insert c true).keys ⊆ xt.chains.toFinset := by
    intro c' hc'
    rw [List.mem_toFinset]
    rcases Finmap.mem_insert.mp (Finmap.mem_keys.mp hc') with rfl | hmem
    · exact hc
    · exact h.votes_mem c' hmem
  have hcard : xt.chains.toFinset.card = xt.chains.length := List.toFinset_card_of_nodup h.nodup
  constructor
  · intro hle c' hc'
    -- a subset of at least the same size is everything
    have heq := Finset.eq_of_subset_of_card_le hsub (hcard ▸ hle)
    have hmem : c' ∈ (xt.votes.insert c true).keys := by
      rw [heq, List.mem_toFinset]
      exact hc'
    exact Finmap.mem_insert.mp (Finmap.mem_keys.mp hmem)
  · intro hall
    rw [← hcard]
    refine Finset.card_le_card fun c' hc' => ?_
    exact Finmap.mem_keys.mpr (Finmap.mem_insert.mpr (hall c' (List.mem_toFinset.mp hc')))

/-- The votes of an undecided instance, with one more yes vote, are all yes. -/
theorem all_insert_true (h : xt.Undecided) (c : ChainId) :
    ((xt.votes.insert c true).all fun _ v => v) = true := by
  rw [HashMap.all_eq_true_iff]
  intro c' v hv
  rw [HashMap.lookup_insert_eq] at hv
  split_ifs at hv with hc
  · exact (Option.some.inj hv).symm
  · exact h.votes_true c' v hv

/-- Counting a yes vote that does not complete the votes leaves the instance undecided. -/
theorem countVote (h : xt.Undecided) {c : ChainId} (hc : c ∈ xt.chains)
    (hopen : (xt.votes.insert c true).keys.card < xt.chains.length) :
    ActiveXt.Undecided { xt with votes := xt.votes.insert c true } where
  nodup := h.nodup
  two_le := h.two_le
  votes_mem := by
    intro c' hc'
    rcases Finmap.mem_insert.mp hc' with rfl | hmem
    · exact hc
    · exact h.votes_mem c' hmem
  missing := by
    by_contra hall
    push Not at hall
    refine absurd ((h.length_le_card_iff hc).mpr fun c' hc' => ?_) (Nat.not_le_of_lt hopen)
    exact Finmap.mem_insert.mp (hall c' hc')
  votes_true := by
    intro c' v hv
    rw [HashMap.lookup_insert_eq] at hv
    split_ifs at hv with hcc
    · exact (Option.some.inj hv).symm
    · exact h.votes_true c' v hv

/-- A fresh instance over at least two distinct chains is undecided. -/
theorem fresh {chains : List ChainId} (hnodup : chains.Nodup) (htwo : 2 ≤ chains.length)
    (bytes : List UInt8) (now : Instant) : ActiveXt.Undecided ⟨chains, ∅, bytes, now⟩ where
  nodup := hnodup
  two_le := htwo
  votes_mem := fun c hc => (Finmap.notMem_empty hc).elim
  missing := by
    obtain ⟨c, hc⟩ := List.exists_mem_of_length_pos (by omega : 0 < chains.length)
    exact ⟨c, hc, Finmap.notMem_empty⟩
  votes_true := by
    intro c v hv
    rw [Finmap.lookup_empty] at hv
    cases hv

end ActiveXt.Undecided

/-! ## Tidy states -/

/-- The shape every reachable state has, whatever the digest function. -/
structure Tidy (s : CoordinatorState) : Prop where
  queued : ∀ e ∈ s.pendingQueue, e.chains = extractChains e.xtRequest ∧ 2 ≤ e.chains.length
  room : s.pendingQueue.length ≤ maxPendingQueueSize
  keyed : ∀ x xt, s.activeXts.lookup x = some xt → x = hexEncode xt.instanceIdBytes
  undecided : ∀ x xt, s.activeXts.lookup x = some xt → xt.Undecided

/-- The chains of a request are distinct. -/
theorem extractChains_nodup (req : Proto.XtRequest) : (extractChains req).Nodup :=
  firstOccurrences_nodup _

/-- A fresh coordinator is tidy. -/
theorem tidy_new : Tidy CoordinatorState.new where
  queued := fun e he => by cases he
  room := Nat.zero_le _
  keyed := fun x xt h => by cases h
  undecided := fun x xt h => by cases h

namespace Tidy

variable {s : CoordinatorState}

/-- The text of the bytes of an active instance is its key. -/
theorem hexEncode_bytesOf (h : Tidy s) {x : String} {xt : ActiveXt}
    (hactive : s.activeXts.lookup x = some xt) : hexEncode (s.bytesOf x) = x := by
  rw [CoordinatorState.bytesOf_of_active hactive]
  exact (h.keyed x xt hactive).symm

/-- Tidiness only depends on the active instances and the queue. -/
theorem congr (h : Tidy s) {s' : CoordinatorState} (hxts : s'.activeXts = s.activeXts)
    (hqueue : s'.pendingQueue = s.pendingQueue) : Tidy s' :=
  ⟨hqueue ▸ h.queued, hqueue ▸ h.room, hxts ▸ h.keyed, hxts ▸ h.undecided⟩

/-- Opening an instance over at least two distinct chains keeps a state tidy. -/
theorem openXt (h : Tidy s) {chains : List ChainId} (hnodup : chains.Nodup)
    (htwo : 2 ≤ chains.length) (bytes : List UInt8) (now : Instant) :
    Tidy (s.openXt (hexEncode bytes) bytes chains now) where
  queued := h.queued
  room := h.room
  keyed := by
    intro y yt hy
    change (s.activeXts.insert _ _).lookup y = _ at hy
    rw [HashMap.lookup_insert_eq] at hy
    split_ifs at hy with hyx
    · cases hy
      exact hyx
    · exact h.keyed y yt hy
  undecided := by
    intro y yt hy
    change (s.activeXts.insert _ _).lookup y = _ at hy
    rw [HashMap.lookup_insert_eq] at hy
    split_ifs at hy with hyx
    · cases hy
      exact .fresh hnodup htwo bytes now
    · exact h.undecided y yt hy

/-- Closing instances keeps a state tidy. -/
theorem foldl_closeXt (h : Tidy s) (xs : List String) :
    Tidy (xs.foldl CoordinatorState.closeXt s) := by
  have hqueue := (s.foldl_closeXt_frame xs).1
  have hactive : ∀ y yt, (xs.foldl CoordinatorState.closeXt s).activeXts.lookup y = some yt →
      s.activeXts.lookup y = some yt := by
    intro y yt hy
    rw [CoordinatorState.foldl_closeXt_lookup] at hy
    split_ifs at hy
    exact hy
  exact ⟨hqueue ▸ h.queued, hqueue ▸ h.room, fun y yt hy => h.keyed y yt (hactive y yt hy),
    fun y yt hy => h.undecided y yt (hactive y yt hy)⟩

/-- Every section keeps a state tidy. -/
theorem transition (h : Tidy s) {cfg : Config} {a : Section} {s' : CoordinatorState} {r : Reply}
    (ht : Transition cfg s a s' r) : Tidy s' := by
  cases ht with
  | quiet same => exact h.congr same.activeXts same.pendingQueue
  | enqueue hchains hoverlap hroom =>
    refine ⟨fun e he => ?_, ?_, h.keyed, h.undecided⟩
    · rcases List.mem_append.mp he with he | he
      · exact h.queued e he
      · rw [List.mem_singleton.mp he]
        exact ⟨rfl, hchains⟩
    · simp only [List.length_append, List.length_singleton]
      omega
  | bypass hchains hfree => exact h.openXt (extractChains_nodup _) hchains _ _
  | @dequeue now l₁ e l₂ hqueue hfree =>
    have he : e ∈ s.pendingQueue := by rw [hqueue]; simp
    obtain ⟨hchains, htwo⟩ := h.queued e he
    have hrest : Tidy { s with pendingQueue := l₁ ++ l₂ } := by
      refine ⟨fun e' he' => h.queued e' ?_, ?_, h.keyed, h.undecided⟩
      · rw [hqueue]
        rcases List.mem_append.mp he' with he' | he'
        · exact List.mem_append_left _ he'
        · exact List.mem_append_right _ (List.mem_cons_of_mem _ he')
      · have hroom := h.room
        rw [hqueue] at hroom
        simp only [List.length_append, List.length_cons] at hroom ⊢
        omega
    exact hrest.openXt (hchains ▸ extractChains_nodup _) htwo _ _
  | @count b c now xt hactive hmember hnew hopen =>
    refine ⟨h.queued, h.room, fun y yt hy => ?_, fun y yt hy => ?_⟩
    all_goals
      change (s.activeXts.insert _ _).lookup y = _ at hy
      rw [HashMap.lookup_insert_eq] at hy
      split_ifs at hy with hyx
    · cases hy
      exact hyx.trans (h.keyed _ xt hactive)
    · exact h.keyed y yt hy
    · cases hy
      exact (h.undecided _ xt hactive).countVote hmember hopen
    · exact h.undecided y yt hy
  | decide => exact h.foldl_closeXt [_]
  | reap => exact h.foldl_closeXt _
  | advance => exact h.congr rfl rfl

end Tidy

namespace Config.Run

variable {cfg : Config}

/-- Every state of a run is tidy. -/
theorem tidy (r : cfg.Run) (n : ℕ) : Tidy (r.state n) :=
  Machine.Run.invariant tidy_new
    (fun s a ha h => h.transition (s.step_transition cfg a ha)) r n

/-! ## Events -/

/-- The step at moment `i` announces an instance with the given id for the given request. -/
def Starts (r : cfg.Run) (i : ℕ) (b : List UInt8) (req : Proto.XtRequest) : Prop :=
  ∃ si ∈ (r.out i).starts, si.instanceId = b ∧ si.xtRequest = some req

/-- The step at moment `i` announces a decision on the instance with the given id. -/
def Decides (r : cfg.Run) (i : ℕ) (b : List UInt8) (decision : Bool) : Prop :=
  ⟨b, decision⟩ ∈ (r.out i).decisions

/-- The step at moment `i` is given a vote. -/
def Receives (r : cfg.Run) (i : ℕ) (b : List UInt8) (c : ChainId) (v : Bool) : Prop :=
  ∃ now, r.label i = .handleVote b c v now

/-- The step at moment `i` is given a vote and records it: the instance is active, and the chain is
one of its participants and has not voted. -/
def Records (r : cfg.Run) (i : ℕ) (b : List UInt8) (c : ChainId) (v : Bool) : Prop :=
  r.Receives i b c v ∧ ∃ xt, (r.state i).activeXts.lookup (hexEncode b) = some xt ∧
    c ∈ xt.chains ∧ c ∉ xt.votes

/-- The step at moment `i` starts an instance and reads the clock at `t`. -/
def StartsAt (r : cfg.Run) (i : ℕ) (t : Instant) : Prop :=
  (∃ req, r.label i = .handleXtRequest req t) ∨ r.label i = .drainQueue t

end Config.Run

namespace Reply

/-- The decisions a reap announces. -/
theorem decisions_reaped (xs : List String) (f : String → List UInt8) :
    (Reply.reaped (xs.map fun x => (x, .ofPublisher (.decided ⟨f x, false⟩)))).decisions =
      xs.map fun x => ⟨f x, false⟩ := by
  simp [decisions, messages, Proto.Message.decided?, Proto.Message.ofPublisher,
    List.filterMap_map, Function.comp_def]

/-- A reap announces no instance. -/
theorem starts_reaped (xs : List String) (f : String → List UInt8) :
    (Reply.reaped (xs.map fun x => (x, .ofPublisher (.decided ⟨f x, false⟩)))).starts = [] := by
  simp [starts, messages, Proto.Message.startInstance?, Proto.Message.ofPublisher,
    List.filterMap_map, Function.comp_def]

end Reply

/-! ## Instances and their history -/

/-- The active instance `xt` with bytes `b` was started at moment `j` for the request `req`, it was
neither started again nor decided since, and its votes at moment `n` are the votes recorded
since. -/
structure OpenSince {cfg : Config} (r : cfg.Run) (n : ℕ) (b : List UInt8) (xt : ActiveXt) (j : ℕ)
    (req : Proto.XtRequest) : Prop where
  before : j < n
  start : r.Starts j b req
  time : r.StartsAt j xt.startTime
  chains : xt.chains = extractChains req
  last : ∀ i, j < i → i < n → ∀ req', ¬ r.Starts i b req'
  undecided : ∀ i, j < i → i < n → ∀ d, ¬ r.Decides i b d
  recorded : ∀ c v, xt.votes.lookup c = some v ↔ ∃ i, j < i ∧ i < n ∧ r.Records i b c v
  received : ∀ c ∈ xt.chains, ∀ i v, j < i → i < n → r.Receives i b c v → c ∈ xt.votes

namespace OpenSince

variable {cfg : Config} {r : cfg.Run} {n j : ℕ} {b : List UInt8} {xt : ActiveXt}
  {req : Proto.XtRequest}

/-- An instance just started is open since now. -/
theorem fresh {si : Proto.StartInstance} (hout : (r.out n).starts = [si])
    (hreq : si.xtRequest = some req) {t : Instant} (htime : r.StartsAt n t) :
    OpenSince r (n + 1) si.instanceId ⟨extractChains req, ∅, si.instanceId, t⟩ n req where
  before := Nat.lt_succ_self n
  start := ⟨si, by rw [hout]; exact List.mem_singleton_self si, rfl, hreq⟩
  time := htime
  chains := rfl
  last := fun i hi hi' => by omega
  undecided := fun i hi hi' => by omega
  recorded := by
    intro c v
    rw [Finmap.lookup_empty]
    constructor
    · intro h
      cases h
    · rintro ⟨i, hi, hi', -⟩
      omega
  received := fun c _ i v hi hi' => by omega

/-- A step that does not start the instance again leaves its start the last one. -/
theorem last_succ (h : OpenSince r n b xt j req) (hstart : ∀ req', ¬ r.Starts n b req') :
    ∀ i, j < i → i < n + 1 → ∀ req', ¬ r.Starts i b req' := by
  intro i hi hi' req'
  rcases Nat.lt_succ_iff_lt_or_eq.mp hi' with hlt | rfl
  · exact h.last i hi hlt req'
  · exact hstart req'

/-- A step that does not decide the instance leaves it undecided since its start. -/
theorem undecided_succ (h : OpenSince r n b xt j req) (hdecide : ∀ d, ¬ r.Decides n b d) :
    ∀ i, j < i → i < n + 1 → ∀ d, ¬ r.Decides i b d := by
  intro i hi hi' d
  rcases Nat.lt_succ_iff_lt_or_eq.mp hi' with hlt | rfl
  · exact h.undecided i hi hlt d
  · exact hdecide d

/-- A step that neither starts nor decides the instance, and gives it at most votes that are already
there, extends its history by one moment. -/
theorem extend (h : OpenSince r n b xt j req)
    (hactive : (r.state n).activeXts.lookup (hexEncode b) = some xt)
    (hstart : ∀ req', ¬ r.Starts n b req') (hdecide : ∀ d, ¬ r.Decides n b d)
    (hvote : ∀ c ∈ xt.chains, ∀ v, r.Receives n b c v → c ∈ xt.votes) :
    OpenSince r (n + 1) b xt j req where
  before := Nat.lt_succ_of_lt h.before
  start := h.start
  time := h.time
  chains := h.chains
  last := h.last_succ hstart
  undecided := h.undecided_succ hdecide
  recorded := by
    intro c v
    rw [h.recorded]
    constructor
    · rintro ⟨i, hi, hi', hrec⟩
      exact ⟨i, hi, Nat.lt_succ_of_lt hi', hrec⟩
    · rintro ⟨i, hi, hi', hrec⟩
      rcases Nat.lt_succ_iff_lt_or_eq.mp hi' with hlt | rfl
      · exact ⟨i, hi, hlt, hrec⟩
      · -- a vote recorded now would be a new one
        obtain ⟨hreceives, xt', hxt', hc, hnew⟩ := hrec
        obtain rfl := Option.some.inj (hactive.symm.trans hxt')
        exact (hnew (hvote c hc v hreceives)).elim
  received := by
    intro c hc i v hi hi' hrec
    rcases Nat.lt_succ_iff_lt_or_eq.mp hi' with hlt | rfl
    · exact h.received c hc i v hi hlt hrec
    · exact hvote c hc v hrec

/-- Counting a yes vote extends the history by that vote. -/
theorem countVote (h : OpenSince r n b xt j req)
    (hactive : (r.state n).activeXts.lookup (hexEncode b) = some xt) {c : ChainId} {now : Instant}
    (hlabel : r.label n = .handleVote b c true now) (hmember : c ∈ xt.chains)
    (hnew : c ∉ xt.votes) (hstart : ∀ req', ¬ r.Starts n b req')
    (hdecide : ∀ d, ¬ r.Decides n b d) :
    OpenSince r (n + 1) b { xt with votes := xt.votes.insert c true } j req where
  before := Nat.lt_succ_of_lt h.before
  start := h.start
  time := h.time
  chains := h.chains
  last := h.last_succ hstart
  undecided := h.undecided_succ hdecide
  recorded := by
    intro c' v
    have hrecords : r.Records n b c true := ⟨⟨now, hlabel⟩, xt, hactive, hmember, hnew⟩
    rw [HashMap.lookup_insert_eq]
    constructor
    · intro hv
      split_ifs at hv with hc
      · cases hv
        exact ⟨n, h.before, Nat.lt_succ_self n, hc ▸ hrecords⟩
      · obtain ⟨i, hi, hi', hrec⟩ := (h.recorded c' v).mp hv
        exact ⟨i, hi, Nat.lt_succ_of_lt hi', hrec⟩
    · rintro ⟨i, hi, hi', hrec⟩
      rcases Nat.lt_succ_iff_lt_or_eq.mp hi' with hlt | rfl
      · have hold := (h.recorded c' v).mpr ⟨i, hi, hlt, hrec⟩
        have hne : c' ≠ c := fun e => hnew (e ▸ Finmap.mem_of_lookup_eq_some hold)
        rw [if_neg hne]
        exact hold
      · obtain ⟨⟨now', hl⟩, -⟩ := hrec
        rw [hlabel] at hl
        cases hl
        rw [if_pos rfl]
  received := by
    intro c' hc' i v hi hi' hrec
    rcases Nat.lt_succ_iff_lt_or_eq.mp hi' with hlt | rfl
    · exact Finmap.mem_insert.mpr (Or.inr (h.received c' hc' i v hi hlt hrec))
    · obtain ⟨now', hl⟩ := hrec
      rw [hlabel] at hl
      cases hl
      exact Finmap.mem_insert.mpr (Or.inl rfl)

end OpenSince

/-- Every active instance has a history. -/
def Tracked {cfg : Config} (r : cfg.Run) (n : ℕ) : Prop :=
  ∀ x xt, (r.state n).activeXts.lookup x = some xt →
    ∃ j req, OpenSince r n xt.instanceIdBytes xt j req

namespace Config.Run

variable {cfg : Config} (r : cfg.Run) {n : ℕ}

/-- The history of an instance that is active before and after a step the same way, when the step
neither starts nor decides it and gives it no new vote. -/
theorem openSince_extend (h : Tracked r n) {x : String} {xt : ActiveXt}
    (hactive : (r.state n).activeXts.lookup x = some xt)
    (hstart : ∀ si ∈ (r.out n).starts, hexEncode si.instanceId ≠ x)
    (hdecide : ∀ d ∈ (r.out n).decisions, hexEncode d.instanceId ≠ x)
    (hvote : ∀ b, hexEncode b = x → ∀ c ∈ xt.chains, ∀ v, r.Receives n b c v → c ∈ xt.votes) :
    ∃ j req, OpenSince r (n + 1) xt.instanceIdBytes xt j req := by
  obtain ⟨j, req, hopen⟩ := h x xt hactive
  obtain rfl := (r.tidy n).keyed x xt hactive
  refine ⟨j, req, hopen.extend hactive ?_ ?_ (hvote _ rfl)⟩
  · rintro req' ⟨si, hsi, hb, -⟩
    exact hstart si hsi (congrArg hexEncode hb)
  · intro d hd
    exact hdecide _ hd rfl

/-- The history of the instances after a step that leaves them alone. -/
theorem tracked_of_same (h : Tracked r n)
    (hactive : (r.state (n + 1)).activeXts = (r.state n).activeXts)
    (hstarts : (r.out n).starts = []) (hdecisions : (r.out n).decisions = [])
    (hvotes : ∀ b c v xt, r.Receives n b c v →
      (r.state n).activeXts.lookup (hexEncode b) = some xt → c ∈ xt.chains → c ∈ xt.votes) :
    Tracked r (n + 1) := by
  intro y yt hy
  rw [hactive] at hy
  refine r.openSince_extend h hy (by simp [hstarts]) (by simp [hdecisions]) ?_
  rintro b rfl c hc v hreceives
  exact hvotes b c v yt hreceives hy hc

/-- The history of the instances after one has been opened. -/
theorem tracked_openXt (h : Tracked r n) (si : Proto.StartInstance) {s : CoordinatorState}
    {req : Proto.XtRequest} {t : Instant} (hactive : s.activeXts = (r.state n).activeXts)
    (hstate : r.state (n + 1) =
      s.openXt (hexEncode si.instanceId) si.instanceId (extractChains req) t)
    (hstarts : (r.out n).starts = [si]) (hdecisions : (r.out n).decisions = [])
    (hreq : si.xtRequest = some req) (htime : r.StartsAt n t) : Tracked r (n + 1) := by
  intro y yt hy
  rw [hstate] at hy
  change (s.activeXts.insert _ _).lookup y = _ at hy
  rw [hactive, HashMap.lookup_insert_eq] at hy
  split_ifs at hy with hyx
  · cases hy
    exact ⟨n, req, .fresh hstarts hreq htime⟩
  · refine r.openSince_extend h hy ?_ ?_ ?_
    · intro si' hsi'
      rw [hstarts, List.mem_singleton] at hsi'
      rw [hsi']
      exact Ne.symm hyx
    · simp [hdecisions]
    · rintro b - c - v ⟨now, hlabel⟩
      rcases htime with ⟨req', hl⟩ | hl <;> simp [hl] at hlabel

/-- The history of the instances after some have been closed. -/
theorem tracked_foldl_closeXt (h : Tracked r n) (xs : List String)
    (hstate : r.state (n + 1) = xs.foldl CoordinatorState.closeXt (r.state n))
    (hstarts : (r.out n).starts = [])
    (hdecisions : ∀ d ∈ (r.out n).decisions, hexEncode d.instanceId ∈ xs)
    (hvotes : ∀ b c v, r.Receives n b c v → hexEncode b ∈ xs) : Tracked r (n + 1) := by
  intro y yt hy
  rw [hstate, CoordinatorState.foldl_closeXt_lookup] at hy
  split_ifs at hy with hyx
  refine r.openSince_extend h hy ?_ ?_ ?_
  · simp [hstarts]
  · rintro d hd rfl
    exact hyx (hdecisions d hd)
  · rintro b rfl c - v hv
    exact (hyx (hvotes b c v hv)).elim

/-- The history of the instances after a yes vote for one of them has been counted. -/
theorem tracked_countVote (h : Tracked r n) {b : List UInt8} {c : ChainId} {now : Instant}
    {xt : ActiveXt} (hactive : (r.state n).activeXts.lookup (hexEncode b) = some xt)
    (hmember : c ∈ xt.chains) (hnew : c ∉ xt.votes) (hlabel : r.label n = .handleVote b c true now)
    (hstate : r.state (n + 1) = (r.state n).countVote (hexEncode b) xt c)
    (hstarts : (r.out n).starts = []) (hdecisions : (r.out n).decisions = []) :
    Tracked r (n + 1) := by
  intro y yt hy
  rw [hstate] at hy
  change ((r.state n).activeXts.insert _ _).lookup y = _ at hy
  rw [HashMap.lookup_insert_eq] at hy
  split_ifs at hy with hyb
  · cases hy
    obtain rfl := hexEncode_injective ((r.tidy n).keyed _ xt hactive)
    obtain ⟨j, req, hopen⟩ := h _ xt hactive
    refine ⟨j, req, hopen.countVote hactive hlabel hmember hnew ?_ ?_⟩
    · rintro req' ⟨si, hsi, -⟩
      rw [hstarts] at hsi
      cases hsi
    · intro d hd
      rw [Decides, hdecisions] at hd
      cases hd
  · refine r.openSince_extend h hy (by simp [hstarts]) (by simp [hdecisions]) ?_
    rintro b' rfl c' - v ⟨now', hlabel'⟩
    cases hlabel.symm.trans hlabel'
    exact (hyb rfl).elim

/-- A step keeps the histories. -/
theorem tracked_succ (h : Tracked r n) : Tracked r (n + 1) := by
  have htidy := r.tidy n
  have ht := r.transition n
  generalize ha : r.label n = a at ht
  generalize hs : r.state (n + 1) = s' at ht
  generalize ho : r.out n = o at ht
  cases ht with
  | quiet same hstart hdecide _ hvote =>
    refine r.tracked_of_same h (by rw [hs, same.activeXts]) (by rw [ho, hstart])
      (by rw [ho, hdecide]) ?_
    rintro b c v xt ⟨now, hlabel⟩ hxt hc
    exact hvote b c v now xt (ha.symm.trans hlabel) hxt hc
  | enqueue =>
    refine r.tracked_of_same h (by rw [hs]) (congrArg Reply.starts ho)
      (congrArg Reply.decisions ho) ?_
    rintro b c v xt ⟨now, hlabel⟩
    cases ha.symm.trans hlabel
  | advance =>
    refine r.tracked_of_same h (by rw [hs]) (congrArg Reply.starts ho)
      (congrArg Reply.decisions ho) ?_
    rintro b c v xt ⟨now, hlabel⟩
    cases ha.symm.trans hlabel
  | @bypass req now =>
    exact r.tracked_openXt h ((r.state n).nextStart cfg.sha256 req) rfl hs
      (congrArg Reply.starts ho) (congrArg Reply.decisions ho) rfl (.inl ⟨req, ha⟩)
  | @dequeue now l₁ e l₂ hqueue =>
    have hchains := (htidy.queued e (by rw [hqueue]; simp)).1
    rw [hchains] at hs
    exact r.tracked_openXt h ((r.state n).nextStart cfg.sha256 e.xtRequest)
      (s := { r.state n with pendingQueue := l₁ ++ l₂ }) rfl hs
      (congrArg Reply.starts ho) (congrArg Reply.decisions ho) rfl (.inr ha)
  | count hactive hmember hnew =>
    exact r.tracked_countVote h hactive hmember hnew ha hs (congrArg Reply.starts ho)
      (congrArg Reply.decisions ho)
  | @decide b c v now xt decision =>
    refine r.tracked_foldl_closeXt h [hexEncode b] hs (congrArg Reply.starts ho) ?_ ?_
    · intro d hd
      have hdec : (r.out n).decisions = [⟨b, decision⟩] := congrArg Reply.decisions ho
      rw [hdec, List.mem_singleton] at hd
      rw [hd]
      exact List.mem_singleton_self _
    · rintro b' c' v' ⟨now', hlabel⟩
      rw [ha] at hlabel
      cases hlabel
      exact List.mem_singleton_self _
  | @reap now order xs hxs =>
    refine r.tracked_foldl_closeXt h xs hs ?_ ?_ ?_
    · rw [ho, Reply.starts_reaped]
    · intro d hd
      rw [ho, Reply.decisions_reaped, List.mem_map] at hd
      obtain ⟨x, hx, rfl⟩ := hd
      -- an expired instance is active, so its text is that of its bytes
      obtain ⟨xt, hxt, -⟩ := CoordinatorState.active_of_mem_expired (hxs ▸ hx)
      rw [htidy.hexEncode_bytesOf hxt]
      exact hx
    · rintro b c v ⟨now', hlabel⟩
      rw [ha] at hlabel
      cases hlabel

/-- In every state of a run, every active instance has a history. -/
theorem tracked (n : ℕ) : Tracked r n := by
  induction n with
  | zero =>
    intro x xt h
    cases h
  | succ n ih => exact r.tracked_succ ih

end Config.Run

end SharedPublisher
