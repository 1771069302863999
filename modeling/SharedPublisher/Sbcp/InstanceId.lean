import SharedPublisher.Foundation.Sha256
import SharedPublisher.Spec.Instance

/-!
# Instance identifiers

An instance id is the SHA-256 digest of the period, the sequence number and the request.  The byte
string fed to the hash is `instanceIdInput`: two words, then for every entry of the request the
chain id, the number of transactions and, for every transaction that is not empty, its length and
its bytes.  An empty transaction is counted and leaves no other trace.

The period, the sequence number and the first chain id stand at fixed offsets and can always be read
back (`instanceIdInput_prefix`).  The rest of the request can be read back as soon as it is known
which transactions of an entry are empty (`instanceIdInput_inj`).  Without that knowledge it cannot:
moving an empty transaction past a non-empty one does not change the byte string
(`exists_collision_of_mixes`).
-/

namespace SharedPublisher

/-- What a transaction contributes to the hash input: nothing if it is empty, otherwise its length
and its bytes. -/
def txBytes (data : List UInt8) : List UInt8 :=
  if data.isEmpty then [] else beBytes (UInt64.ofNat data.length) ++ data

/-- What the entry for one chain contributes to the hash input. -/
def entryBytes (req : TransactionRequest) : List UInt8 :=
  beBytes req.chainId ++
    (beBytes (UInt64.ofNat req.transactions.length) ++ req.transactions.flatMap txBytes)

/-- The byte string fed to SHA-256. -/
def instanceIdInput (periodId : PeriodId) (seq : SequenceNumber) (xtRequest : XtRequest) :
    List UInt8 :=
  beBytes periodId ++ (beBytes seq ++ xtRequest.transactions.flatMap entryBytes)

/-- The deterministic id of an instance, for a given digest function. -/
def generateInstanceId (sha256 : List UInt8 → InstanceId) (periodId : PeriodId)
    (seq : SequenceNumber) (xtRequest : XtRequest) : InstanceId :=
  sha256 (instanceIdInput periodId seq xtRequest)

/-! ## What can always be read back -/

/-- The period and the sequence number of a hash input. -/
theorem instanceIdInput_counters {p q : PeriodId} {m n : SequenceNumber} {a b : XtRequest}
    (h : instanceIdInput p m a = instanceIdInput q n b) : p = q ∧ m = n := by
  unfold instanceIdInput at h
  obtain ⟨hpq, hrest⟩ := beBytes_append_inj.mp h
  exact ⟨hpq, (beBytes_append_inj.mp hrest).1⟩

/-- Two requests with entries and the same hash input share the chain of their first entry. -/
theorem instanceIdInput_prefix {p q : PeriodId} {m n : SequenceNumber} {e f : TransactionRequest}
    {as bs : List TransactionRequest}
    (h : instanceIdInput p m ⟨e :: as⟩ = instanceIdInput q n ⟨f :: bs⟩) :
    e.chainId = f.chainId := by
  unfold instanceIdInput at h
  obtain ⟨-, hrest⟩ := beBytes_append_inj.mp h
  obtain ⟨-, hentries⟩ := beBytes_append_inj.mp hrest
  simp only [List.flatMap_cons, entryBytes, List.append_assoc] at hentries
  exact (beBytes_append_inj.mp hentries).1

/-! ## Unique readability under known emptiness -/

/-- The counts and lengths of a request fit into 64 bits. -/
def XtRequest.Bounded (xt : XtRequest) : Prop :=
  ∀ e ∈ xt.transactions, e.transactions.length < 2 ^ 64 ∧ ∀ d ∈ e.transactions, d.length < 2 ^ 64

/-- Wherever two requests have, at the same position, entries for the same chain with the same
number of transactions, the same of these transactions are empty. -/
def SameEmptiness (a b : XtRequest) : Prop :=
  ∀ (k : ℕ) (e f : TransactionRequest), a.transactions[k]? = some e →
    b.transactions[k]? = some f → e.chainId = f.chainId →
    e.transactions.length = f.transactions.length →
    e.transactions.map List.isEmpty = f.transactions.map List.isEmpty

/-- Requests without empty transactions have the same emptiness. -/
theorem sameEmptiness_of_nonempty {a b : XtRequest}
    (ha : ∀ e ∈ a.transactions, ∀ d ∈ e.transactions, d ≠ [])
    (hb : ∀ e ∈ b.transactions, ∀ d ∈ e.transactions, d ≠ []) : SameEmptiness a b := by
  have all_false : ∀ l : List (List UInt8), (∀ d ∈ l, d ≠ []) →
      l.map List.isEmpty = List.replicate l.length false := by
    intro l hl
    rw [List.eq_replicate_iff]
    refine ⟨List.length_map _, fun x hx => ?_⟩
    obtain ⟨d, hd, rfl⟩ := List.mem_map.mp hx
    simpa using hl d hd
  intro k e f he hf _ hlen
  rw [all_false _ (ha e (List.mem_of_getElem? he)), all_false _ (hb f (List.mem_of_getElem? hf)),
    hlen]

/-- A length that fits into 64 bits survives the conversion. -/
private theorem ofNat_inj_of_lt {m n : ℕ} (hm : m < 2 ^ 64) (hn : n < 2 ^ 64)
    (h : UInt64.ofNat m = UInt64.ofNat n) : m = n := by
  have h' := congrArg UInt64.toNat h
  rwa [UInt64.toNat_ofNat', UInt64.toNat_ofNat', Nat.mod_eq_of_lt hm, Nat.mod_eq_of_lt hn] at h'

/-- Non-empty transactions in front of a byte string can be split off. -/
private theorem txBytes_append_inj {d d' r r' : List UInt8} (hd : d ≠ []) (hd' : d' ≠ [])
    (hlen : d.length < 2 ^ 64) (hlen' : d'.length < 2 ^ 64)
    (h : txBytes d ++ r = txBytes d' ++ r') : d = d' ∧ r = r' := by
  have hne : d.isEmpty = false := by simpa using hd
  have hne' : d'.isEmpty = false := by simpa using hd'
  simp only [txBytes, hne, hne', Bool.false_eq_true, if_false, List.append_assoc] at h
  obtain ⟨hword, hrest⟩ := beBytes_append_inj.mp h
  exact List.append_inj hrest (ofNat_inj_of_lt hlen hlen' hword)

/-- Transaction lists with the same empty positions can be split off. -/
private theorem flatMap_txBytes_append_inj {ts us : List (List UInt8)} {r r' : List UInt8}
    (hts : ∀ d ∈ ts, d.length < 2 ^ 64) (hus : ∀ d ∈ us, d.length < 2 ^ 64)
    (hempty : ts.map List.isEmpty = us.map List.isEmpty)
    (h : ts.flatMap txBytes ++ r = us.flatMap txBytes ++ r') : ts = us ∧ r = r' := by
  induction ts generalizing us with
  | nil =>
    obtain rfl : us = [] := by simpa using hempty.symm
    exact ⟨rfl, h⟩
  | cons d ts ih =>
    cases us with
    | nil => simp at hempty
    | cons d' us =>
      rw [List.map_cons, List.map_cons, List.cons.injEq] at hempty
      rw [List.flatMap_cons, List.flatMap_cons, List.append_assoc, List.append_assoc] at h
      have hts' : ∀ x ∈ ts, x.length < 2 ^ 64 := fun x hx => hts x (List.mem_cons_of_mem _ hx)
      have hus' : ∀ x ∈ us, x.length < 2 ^ 64 := fun x hx => hus x (List.mem_cons_of_mem _ hx)
      rcases eq_or_ne d [] with rfl | hd
      · -- an empty transaction writes nothing, and the other one is empty too
        obtain rfl : d' = [] := by simpa using hempty.1.symm
        obtain ⟨rfl, hr⟩ := ih hts' hus' hempty.2 h
        exact ⟨rfl, hr⟩
      · have hd' : d' ≠ [] := by
          rintro rfl
          simp [hd] at hempty
        obtain ⟨rfl, hrest⟩ := txBytes_append_inj hd hd' (hts d List.mem_cons_self)
          (hus d' List.mem_cons_self) h
        obtain ⟨rfl, hr⟩ := ih hts' hus' hempty.2 hrest
        exact ⟨rfl, hr⟩

/-- Request bodies with the same emptiness and the same bytes are equal. -/
private theorem flatMap_entryBytes_inj {as bs : List TransactionRequest}
    (ha : XtRequest.Bounded ⟨as⟩) (hb : XtRequest.Bounded ⟨bs⟩) (hempty : SameEmptiness ⟨as⟩ ⟨bs⟩)
    (h : as.flatMap entryBytes = bs.flatMap entryBytes) : as = bs := by
  induction as generalizing bs with
  | nil =>
    cases bs with
    | nil => rfl
    | cons f bs => simp [entryBytes, beBytes] at h
  | cons e as ih =>
    cases bs with
    | nil => simp [entryBytes, beBytes] at h
    | cons f bs =>
      simp only [List.flatMap_cons, entryBytes, List.append_assoc] at h
      obtain ⟨hchain, hrest⟩ := beBytes_append_inj.mp h
      obtain ⟨hcount, hrest⟩ := beBytes_append_inj.mp hrest
      obtain ⟨he, het⟩ := ha e List.mem_cons_self
      obtain ⟨hf, hft⟩ := hb f List.mem_cons_self
      have hlen := ofNat_inj_of_lt he hf hcount
      have hmask := hempty 0 e f rfl rfl hchain hlen
      obtain ⟨htxs, htail⟩ := flatMap_txBytes_append_inj het hft hmask hrest
      have hhead : e = f := by
        cases e
        cases f
        simp_all
      have htl : as = bs := ih (fun x hx => ha x (List.mem_cons_of_mem _ hx))
        (fun x hx => hb x (List.mem_cons_of_mem _ hx)) (fun k => hempty (k + 1)) htail
      rw [hhead, htl]

/-- Under the same emptiness the hash input determines period, sequence number and request. -/
theorem instanceIdInput_inj {p q : PeriodId} {m n : SequenceNumber} {a b : XtRequest}
    (ha : a.Bounded) (hb : b.Bounded) (hempty : SameEmptiness a b)
    (h : instanceIdInput p m a = instanceIdInput q n b) : p = q ∧ m = n ∧ a = b := by
  obtain ⟨hp, hm⟩ := instanceIdInput_counters h
  subst hp
  subst hm
  unfold instanceIdInput at h
  have hbody := (beBytes_append_inj.mp (beBytes_append_inj.mp h).2).2
  refine ⟨rfl, rfl, ?_⟩
  cases a
  cases b
  rw [flatMap_entryBytes_inj ha hb hempty hbody]

/-! ## Where it fails -/

/-- Some entry of the request has an empty transaction next to a non-empty one. -/
def XtRequest.Mixes (xt : XtRequest) : Prop :=
  ∃ e ∈ xt.transactions, [] ∈ e.transactions ∧ ∃ d ∈ e.transactions, d ≠ []

/-- Only the non-empty transactions of an entry reach the hash input. -/
private theorem flatMap_txBytes_filter (ts : List (List UInt8)) :
    ts.flatMap txBytes = (ts.filter fun d => !d.isEmpty).flatMap txBytes := by
  induction ts with
  | nil => rfl
  | cons d ts ih =>
    cases hd : d.isEmpty with
    | true => simp [txBytes, hd, ih]
    | false => simp [hd, ih]

/-- A transaction list with an empty and a non-empty member has another arrangement with the same
number of transactions and the same bytes. -/
private theorem exists_rearrangement {ts : List (List UInt8)} (hnil : [] ∈ ts)
    (hcons : ∃ d ∈ ts, d ≠ []) :
    ∃ us, us ≠ ts ∧ us.Perm ts ∧ us.flatMap txBytes = ts.flatMap txBytes := by
  set full := ts.filter fun d => !d.isEmpty with hfull
  set void := ts.filter fun d => d.isEmpty with hvoid
  have hperm : (full ++ void).Perm ts := by
    have := List.filter_append_perm (fun d : List UInt8 => !d.isEmpty) ts
    simpa only [Bool.not_not] using this
  have hbytes : full.flatMap txBytes = ts.flatMap txBytes := (flatMap_txBytes_filter ts).symm
  have hvoidBytes : void.flatMap txBytes = [] := by
    rw [flatMap_txBytes_filter, hvoid, List.filter_filter]
    simp
  -- one of the two sorted arrangements differs from the given one, since they differ in their
  -- first transaction
  have hdiff : full ++ void ≠ void ++ full := by
    obtain ⟨d, hd, hdne⟩ := hcons
    have hdfull : d ∈ full := List.mem_filter.mpr ⟨hd, by simpa using hdne⟩
    have hnilvoid : [] ∈ void := List.mem_filter.mpr ⟨hnil, rfl⟩
    intro heq
    cases hf : full with
    | nil => simp [hf] at hdfull
    | cons x xs =>
      cases hv : void with
      | nil => simp [hv] at hnilvoid
      | cons y ys =>
        rw [hf, hv, List.cons_append, List.cons_append, List.cons.injEq] at heq
        have hx : x ∈ full := hf ▸ List.mem_cons_self
        have hy : y ∈ void := hv ▸ List.mem_cons_self
        have hx' := (List.mem_filter.mp hx).2
        have hy' := (List.mem_filter.mp hy).2
        rw [heq.1] at hx'
        simp [hy'] at hx'
  by_cases h : full ++ void = ts
  · refine ⟨void ++ full, fun h' => hdiff (h.trans h'.symm), ?_, ?_⟩
    · exact List.perm_append_comm.trans hperm
    · rw [List.flatMap_append, hvoidBytes, hbytes, List.nil_append]
  · refine ⟨full ++ void, h, hperm, ?_⟩
    rw [List.flatMap_append, hvoidBytes, hbytes, List.append_nil]

/-- A request that mixes empty and non-empty transactions shares its hash input with another
request. -/
theorem exists_collision_of_mixes {a : XtRequest} (ha : a.Bounded) (hmix : a.Mixes) :
    ∃ b : XtRequest, b ≠ a ∧ b.Bounded ∧
      ∀ p m, instanceIdInput p m b = instanceIdInput p m a := by
  obtain ⟨e, he, hnil, hcons⟩ := hmix
  obtain ⟨us, hne, hperm, hbytes⟩ := exists_rearrangement hnil hcons
  obtain ⟨l₁, l₂, hsplit⟩ := List.append_of_mem he
  have hbound := ha e he
  refine ⟨⟨l₁ ++ ⟨e.chainId, us⟩ :: l₂⟩, ?_, ?_, ?_⟩
  · intro h
    have h' := congrArg XtRequest.transactions h
    rw [hsplit, List.append_cancel_left_eq, List.cons.injEq] at h'
    exact hne (congrArg TransactionRequest.transactions h'.1)
  · intro f hf
    rcases List.mem_append.mp hf with hf | hf
    · exact ha f (by rw [hsplit]; exact List.mem_append_left _ hf)
    · rcases List.mem_cons.mp hf with rfl | hf
      · exact ⟨hperm.length_eq ▸ hbound.1, fun d hd => hbound.2 d (hperm.subset hd)⟩
      · exact ha f (by rw [hsplit]; exact List.mem_append_right _ (List.mem_cons_of_mem _ hf))
  · intro p m
    unfold instanceIdInput
    rw [hsplit]
    simp only [List.flatMap_append, List.flatMap_cons, entryBytes, hbytes, hperm.length_eq]

/-- Instance ids bind the request as far as the emptiness of its transactions is known: under the
same emptiness the hash input, and with it the id under a digest that separates the two inputs,
determines period, sequence number and request; a request that mixes empty and non-empty
transactions is not determined by its hash input. -/
theorem instanceId_binds_request_of_sameEmptiness (sha256 : List UInt8 → InstanceId)
    (p q : PeriodId) (m n : SequenceNumber) (a b : XtRequest) (ha : a.Bounded) (hb : b.Bounded) :
    (SameEmptiness a b →
      (instanceIdInput p m a = instanceIdInput q n b → p = q ∧ m = n ∧ a = b) ∧
      (Set.InjOn sha256 {instanceIdInput p m a, instanceIdInput q n b} →
        generateInstanceId sha256 p m a = generateInstanceId sha256 q n b →
          p = q ∧ m = n ∧ a = b)) ∧
    (a.Mixes → ∃ c : XtRequest, c ≠ a ∧ c.Bounded ∧
      instanceIdInput p m c = instanceIdInput p m a) := by
  refine ⟨fun hempty => ⟨instanceIdInput_inj ha hb hempty, fun hinj hid => ?_⟩, fun hmix => ?_⟩
  · have hinput := hinj (Set.mem_insert _ _) (Set.mem_insert_of_mem _ rfl) hid
    exact instanceIdInput_inj ha hb hempty hinput
  · obtain ⟨c, hne, hc, hsame⟩ := exists_collision_of_mixes ha hmix
    exact ⟨c, hne, hc, hsame p m⟩

/-- Two requests that differ in one byte, without empty transactions, get different ids. -/
theorem instanceId_binds_request_one_byte :
    generateInstanceId sha256 10 1 ⟨[⟨1, [[1, 2]]⟩, ⟨2, [[3]]⟩]⟩ ≠
      generateInstanceId sha256 10 1 ⟨[⟨1, [[1, 2]]⟩, ⟨2, [[0xFF]]⟩]⟩ := by
  have hbound : (XtRequest.mk [⟨1, [[1, 2]]⟩, ⟨2, [[3]]⟩]).Bounded := by
    unfold XtRequest.Bounded
    decide
  have hbound' : (XtRequest.mk [⟨1, [[1, 2]]⟩, ⟨2, [[0xFF]]⟩]).Bounded := by
    unfold XtRequest.Bounded
    decide
  have hempty : SameEmptiness ⟨[⟨1, [[1, 2]]⟩, ⟨2, [[3]]⟩]⟩ ⟨[⟨1, [[1, 2]]⟩, ⟨2, [[0xFF]]⟩]⟩ :=
    sameEmptiness_of_nonempty (by decide) (by decide)
  intro hid
  obtain ⟨-, -, heq⟩ := ((instanceId_binds_request_of_sameEmptiness sha256 10 10 1 1 _ _ hbound
    hbound').1 hempty).2 (Set.injOn_pair.mpr (by decide +kernel)) hid
  exact absurd heq (by decide)

/-- An empty transaction before or after a non-empty one: two requests over the same chains, one
hash input, one id. -/
theorem instanceId_collision :
    (XtRequest.mk [⟨1, [[], [5]]⟩, ⟨2, [[7]]⟩]).Bounded ∧
    (XtRequest.mk [⟨1, [[5], []]⟩, ⟨2, [[7]]⟩]).Bounded ∧
    XtRequest.mk [⟨1, [[], [5]]⟩, ⟨2, [[7]]⟩] ≠ XtRequest.mk [⟨1, [[5], []]⟩, ⟨2, [[7]]⟩] ∧
    instanceIdInput 10 1 ⟨[⟨1, [[], [5]]⟩, ⟨2, [[7]]⟩]⟩ =
      instanceIdInput 10 1 ⟨[⟨1, [[5], []]⟩, ⟨2, [[7]]⟩]⟩ ∧
    generateInstanceId sha256 10 1 ⟨[⟨1, [[], [5]]⟩, ⟨2, [[7]]⟩]⟩ =
      generateInstanceId sha256 10 1 ⟨[⟨1, [[5], []]⟩, ⟨2, [[7]]⟩]⟩ := by
  unfold XtRequest.Bounded
  refine ⟨by decide, by decide, by decide, by decide, congrArg sha256 ?_⟩
  decide

end SharedPublisher
