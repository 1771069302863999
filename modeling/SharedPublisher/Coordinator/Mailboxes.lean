import SharedPublisher.Coordinator.Proofs

/-!
# Which mailboxes are compared

A proof lists its inboxes by the identifier of the chain they come from, and its outboxes by the
identifier of the chain they go to.  The inbox of chain `i` from chain `j` must have the root of the
outbox of chain `j` to chain `i`.  The check looks for the identifier of the inbox, which names
chain `j`, among the outboxes of all proofs.  It finds the first outbox that goes *to* chain `j`,
whoever sends it, and compares with its root.

So the check passes exactly if no inbox has another root than the first outbox listed for the same
identifier.  Two chains that exchange different messages are refused, and an inbox is never compared
if nothing is sent to its sender.

The outbox that is found goes to the sender of the inbox, and the one that it should be compared
with goes to its receiver.  They are the same only for an inbox of a chain from itself.  So what the
proofs list makes the check right, whatever the roots are, only if for every other inbox there is
neither the one nor the other.
-/

namespace SharedPublisher

/-! ## What the check computes -/

/-- A loop in which every step may fail succeeds exactly if all its steps do. -/
theorem forM_eq_ok_iff {α ε : Type*} {f : α → Except ε Unit} {l : List α} :
    l.forM f = .ok () ↔ ∀ a ∈ l, f a = .ok () := by
  induction l with
  | nil => exact iff_of_true rfl fun _ h => absurd h List.not_mem_nil
  | cons a l ih =>
    rw [List.forall_mem_cons]
    change (f a >>= fun _ => l.forM f) = .ok () ↔ _
    rcases f a with e | ⟨⟩
    · exact iff_of_false (fun h => by cases h) fun h => by cases h.1
    · exact ih.trans (and_iff_right rfl).symm

/-- The root with which an inbox from the given identifier is compared. -/
def comparedRoot (proofs : List (UInt64 × ProofData)) (x : B256) : Option B256 :=
  ((proofs.map Prod.snd).find? fun p => p.mailboxInfo.outboxChains.any fun oc => oc = x).bind
    fun cp => (cp.mailboxInfo.outboxChains.findIdx? fun oc => oc = x).bind
      fun outboxIdx => cp.mailboxInfo.outboxRoots[outboxIdx]?

/-- An inbox passes exactly if it has a root, and no other one than it is compared with. -/
theorem checkInbox_eq_ok_iff {proofs : List (UInt64 × ProofData)} {i : UInt64} {mi : MailboxInfo}
    {inbox : B256 × ℕ} :
    checkInbox proofs i mi inbox = .ok () ↔
      ∃ r, mi.inboxRoots[inbox.2]? = some r ∧
        ∀ s, comparedRoot proofs inbox.1 = some s → r = s := by
  unfold checkInbox comparedRoot
  rcases mi.inboxRoots[inbox.2]? with - | r
  · exact iff_of_false (fun h => by cases h) fun ⟨r, hr, _⟩ => by cases hr
  · dsimp only
    rcases List.find? _ (proofs.map Prod.snd) with - | cp
    · exact iff_of_true rfl ⟨r, rfl, fun s hs => by cases hs⟩
    · dsimp only [Option.bind_some]
      rcases cp.mailboxInfo.outboxChains.findIdx? _ with - | outboxIdx
      · exact iff_of_true rfl ⟨r, rfl, fun s hs => by cases hs⟩
      · dsimp only [Option.bind_some]
        rcases cp.mailboxInfo.outboxRoots[outboxIdx]? with - | s
        · exact iff_of_true rfl ⟨r, rfl, fun s hs => by cases hs⟩
        · by_cases hrs : r = s
          · subst hrs
            refine iff_of_true ?_ ⟨r, rfl, fun s hs => Option.some.inj hs⟩
            exact if_neg (not_not.mpr rfl)
          · refine iff_of_false ?_ ?_
            · intro h
              cases (if_pos hrs).symm.trans h
            · rintro ⟨r', hr', hsame⟩
              obtain rfl := Option.some.inj hr'
              exact hrs (hsame s rfl)

/-! ## Inboxes, outboxes and their roots -/

/-- The mailboxes of a proof: no chain is listed twice, and every listed chain has a root. -/
structure MailboxInfo.WellFormed (mi : MailboxInfo) : Prop where
  inbox_nodup : mi.inboxChains.Nodup
  outbox_nodup : mi.outboxChains.Nodup
  inbox_length : mi.inboxRoots.length = mi.inboxChains.length
  outbox_length : mi.outboxRoots.length = mi.outboxChains.length

instance (mi : MailboxInfo) : Decidable mi.WellFormed :=
  decidable_of_iff (mi.inboxChains.Nodup ∧ mi.outboxChains.Nodup ∧
      mi.inboxRoots.length = mi.inboxChains.length ∧
      mi.outboxRoots.length = mi.outboxChains.length)
    ⟨fun ⟨hin, hout, hinLength, houtLength⟩ => ⟨hin, hout, hinLength, houtLength⟩,
      fun h => ⟨h.inbox_nodup, h.outbox_nodup, h.inbox_length, h.outbox_length⟩⟩

/-- The inboxes of a proof: the identifier of the chain each comes from, and its root. -/
def ProofData.inboxes (proof : ProofData) : List (B256 × B256) :=
  proof.mailboxInfo.inboxChains.zip proof.mailboxInfo.inboxRoots

/-- The outboxes of a proof: the identifier of the chain each goes to, and its root. -/
def ProofData.outboxes (proof : ProofData) : List (B256 × B256) :=
  proof.mailboxInfo.outboxChains.zip proof.mailboxInfo.outboxRoots

/-- An outbox to the given identifier has the given root, and no proof before it in the iteration
order lists one. -/
def FirstOutbox (proofs : List (UInt64 × ProofData)) (x s : B256) : Prop :=
  ∃ before entry after, proofs = before ++ entry :: after ∧
    (∀ e ∈ before, x ∉ e.2.mailboxInfo.outboxChains) ∧ (x, s) ∈ entry.2.outboxes

/-- What the mailboxes should satisfy, for an encoding of chain ids as identifiers: the inbox of a
chain from another one has the root of the outbox of the other one to it. -/
def MailboxesConsistent (enc : UInt64 → B256) (proofs : List (UInt64 × ProofData)) : Prop :=
  ∀ i ∈ proofs, ∀ j ∈ proofs, ∀ inbox ∈ i.2.inboxes, ∀ outbox ∈ j.2.outboxes,
    inbox.1 = enc j.1 → outbox.1 = enc i.1 → inbox.2 = outbox.2

instance (enc : UInt64 → B256) (proofs : List (UInt64 × ProofData)) :
    Decidable (MailboxesConsistent enc proofs) :=
  inferInstanceAs (Decidable (∀ i ∈ proofs, _))

/-- The outbox that an inbox is compared with is the one of its counterparty: the first outbox that
is listed for the identifier of an inbox is the outbox of the chain it comes from to the chain it is
at. -/
def PairsCounterparties (enc : UInt64 → B256) (proofs : List (UInt64 × ProofData)) : Prop :=
  ∀ i ∈ proofs, ∀ inbox ∈ i.2.inboxes, ∀ s, FirstOutbox proofs inbox.1 s ↔
    ∃ j ∈ proofs, ∃ outbox ∈ j.2.outboxes, inbox.1 = enc j.1 ∧ outbox.1 = enc i.1 ∧ outbox.2 = s

/-- What a proof lists, without the roots. -/
structure Listing where
  chain : UInt64
  inboxChains : List B256
  outboxChains : List B256

def listing (e : UInt64 × ProofData) : Listing :=
  ⟨e.1, e.2.mailboxInfo.inboxChains, e.2.mailboxInfo.outboxChains⟩

/-- The first proof in the iteration order that lists an outbox to the identifier. -/
def firstLister (listings : List Listing) (x : B256) : Option Listing :=
  listings.find? fun t => x ∈ t.outboxChains

/-- For every inbox, the outbox that it is compared with and the outbox of its counterparty are the
same, which then is one of the chain of the inbox to itself, or there is neither. -/
def ComparesRight (enc : UInt64 → B256) (listings : List Listing) : Prop :=
  ∀ i ∈ listings, ∀ x ∈ i.inboxChains,
    (x = enc i.chain ∧ (firstLister listings x).map Listing.chain = some i.chain) ∨
      (firstLister listings x = none ∧
        ∀ j ∈ listings, enc j.chain = x → enc i.chain ∉ j.outboxChains)

/-- The root found at the position of a key that occurs once is the root listed with it. -/
theorem findIdx_bind_eq_some_iff {K V : Type*} [DecidableEq K] {keys : List K} {vals : List V}
    {x : K} {s : V} (hkeys : keys.Nodup) :
    ((keys.findIdx? fun k => k = x).bind fun idx => vals[idx]?) = some s ↔
      (x, s) ∈ keys.zip vals := by
  induction keys generalizing vals with
  | nil => simp
  | cons k keys ih =>
    obtain ⟨hk, hkeys⟩ := List.nodup_cons.mp hkeys
    cases vals with
    | nil => simp
    | cons v vals =>
      rw [List.findIdx?_cons, List.zip_cons_cons, List.mem_cons, Prod.mk.injEq]
      by_cases hkx : k = x
      · subst hkx
        have hnone : (k, s) ∉ keys.zip vals := fun h => hk (List.of_mem_zip h).1
        simp [hnone, eq_comm]
      · rw [← ih hkeys]
        simp [hkx, Ne.symm hkx, Option.bind_map]

/-- The first proof of the order decides alone if it lists the identifier, and otherwise the rest
does. -/
theorem comparedRoot_cons (e : UInt64 × ProofData) (proofs : List (UInt64 × ProofData)) (x : B256) :
    comparedRoot (e :: proofs) x =
      if x ∈ e.2.mailboxInfo.outboxChains then
        (e.2.mailboxInfo.outboxChains.findIdx? fun oc => oc = x).bind
          fun outboxIdx => e.2.mailboxInfo.outboxRoots[outboxIdx]?
      else comparedRoot proofs x := by
  unfold comparedRoot
  rw [List.map_cons, List.find?_cons]
  by_cases hx : x ∈ e.2.mailboxInfo.outboxChains
  · have hany : (e.2.mailboxInfo.outboxChains.any fun oc => oc = x) = true := by simpa using hx
    rw [hany, if_pos hx]
    rfl
  · have hany : (e.2.mailboxInfo.outboxChains.any fun oc => oc = x) = false := by
      rw [List.any_eq_false]
      intro oc hoc heq
      exact hx (of_decide_eq_true heq ▸ hoc)
    rw [hany, if_neg hx]

theorem firstOutbox_cons_iff {e : UInt64 × ProofData} {proofs : List (UInt64 × ProofData)}
    {x s : B256} :
    FirstOutbox (e :: proofs) x s ↔
      if x ∈ e.2.mailboxInfo.outboxChains then (x, s) ∈ e.2.outboxes
      else FirstOutbox proofs x s := by
  split_ifs with hx
  · constructor
    · rintro ⟨before, entry, after, hsplit, hbefore, houtbox⟩
      cases before with
      | nil =>
        obtain rfl := (List.cons.inj hsplit).1
        exact houtbox
      | cons e' before =>
        obtain rfl := (List.cons.inj hsplit).1
        exact absurd hx (hbefore e List.mem_cons_self)
    · intro houtbox
      exact ⟨[], e, proofs, rfl, fun e' he' => absurd he' List.not_mem_nil, houtbox⟩
  · constructor
    · rintro ⟨before, entry, after, hsplit, hbefore, houtbox⟩
      cases before with
      | nil =>
        obtain rfl := (List.cons.inj hsplit).1
        exact absurd (List.of_mem_zip houtbox).1 hx
      | cons e' before =>
        refine ⟨before, entry, after, (List.cons.inj hsplit).2, ?_, houtbox⟩
        exact fun e'' he'' => hbefore e'' (List.mem_cons_of_mem e' he'')
    · rintro ⟨before, entry, after, rfl, hbefore, houtbox⟩
      refine ⟨e :: before, entry, after, rfl, ?_, houtbox⟩
      exact List.forall_mem_cons.mpr ⟨hx, hbefore⟩

/-- An inbox is compared with the first outbox that is listed for the same identifier. -/
theorem comparedRoot_eq_some_iff {proofs : List (UInt64 × ProofData)} {x s : B256}
    (hwf : ∀ e ∈ proofs, e.2.mailboxInfo.WellFormed) :
    comparedRoot proofs x = some s ↔ FirstOutbox proofs x s := by
  induction proofs with
  | nil =>
    refine iff_of_false (fun h => by cases h) ?_
    rintro ⟨before, entry, after, hsplit, -⟩
    simp at hsplit
  | cons e proofs ih =>
    obtain ⟨he, hproofs⟩ := List.forall_mem_cons.mp hwf
    rw [comparedRoot_cons, firstOutbox_cons_iff]
    split_ifs
    · exact findIdx_bind_eq_some_iff he.outbox_nodup
    · exact ih hproofs

/-- What the loop over the inboxes of a proof goes through. -/
theorem forall_inboxes_iff {proof : ProofData} (hwf : proof.mailboxInfo.WellFormed)
    {P : B256 → B256 → Prop} :
    (∀ inbox ∈ proof.mailboxInfo.inboxChains.zipIdx,
        ∃ r, proof.mailboxInfo.inboxRoots[inbox.2]? = some r ∧ P inbox.1 r) ↔
      ∀ inbox ∈ proof.inboxes, P inbox.1 inbox.2 := by
  constructor
  · rintro h ⟨x, r⟩ hinbox
    obtain ⟨idx, hidx⟩ := List.mem_iff_getElem?.mp hinbox
    obtain ⟨hx, hr⟩ := List.getElem?_zip_eq_some.mp hidx
    obtain ⟨r', hr', hP⟩ := h (x, idx) (List.mem_zipIdx_iff_getElem?.mpr hx)
    obtain rfl := Option.some.inj (hr.symm.trans hr')
    exact hP
  · rintro h ⟨x, idx⟩ hinbox
    have hx := List.mem_zipIdx_iff_getElem?.mp hinbox
    -- every inbox has a root
    have hlt : idx < proof.mailboxInfo.inboxRoots.length := by
      rw [hwf.inbox_length]
      exact (List.getElem?_eq_some_iff.mp hx).1
    have hr := List.getElem?_eq_getElem hlt
    refine ⟨_, hr, h (x, _) ?_⟩
    exact List.mem_of_getElem? (List.getElem?_zip_eq_some.mpr ⟨hx, hr⟩)

/-- The check passes exactly if every inbox has the root it is compared with. -/
theorem validateMailboxConsistency_eq_ok_iff {proofs : List (UInt64 × ProofData)}
    (hwf : ∀ e ∈ proofs, e.2.mailboxInfo.WellFormed) :
    validateMailboxConsistency proofs = .ok () ↔
      ∀ i ∈ proofs, ∀ inbox ∈ i.2.inboxes, ∀ s, FirstOutbox proofs inbox.1 s → inbox.2 = s := by
  rw [validateMailboxConsistency, forM_eq_ok_iff]
  refine forall₂_congr fun i hi => ?_
  rw [forM_eq_ok_iff, ← forall_inboxes_iff (hwf i hi) (P := fun x r =>
    ∀ s, FirstOutbox proofs x s → r = s)]
  simp only [checkInbox_eq_ok_iff, comparedRoot_eq_some_iff hwf]

/-- If every inbox is compared with the outbox of its counterparty, the check is right. -/
theorem PairsCounterparties.check_iff {enc : UInt64 → B256} {proofs : List (UInt64 × ProofData)}
    (hpairs : PairsCounterparties enc proofs) (hwf : ∀ e ∈ proofs, e.2.mailboxInfo.WellFormed) :
    validateMailboxConsistency proofs = .ok () ↔ MailboxesConsistent enc proofs := by
  rw [validateMailboxConsistency_eq_ok_iff hwf]
  constructor
  · intro h i hi j hj inbox hinbox outbox houtbox hfrom hto
    have hcompared := (hpairs i hi inbox hinbox outbox.2).mpr
      ⟨j, hj, outbox, houtbox, hfrom, hto, rfl⟩
    exact h i hi inbox hinbox outbox.2 hcompared
  · intro h i hi inbox hinbox s hcompared
    obtain ⟨j, hj, outbox, houtbox, hfrom, hto, rfl⟩ := (hpairs i hi inbox hinbox s).mp hcompared
    exact h i hi j hj inbox hinbox outbox houtbox hfrom hto

/-! ## The same listings with other roots -/

/-- A proof with the given mailboxes. -/
def proofWithMailboxes (inboxes outboxes : List (B256 × B256)) : ProofData where
  aggregationOutputs := default
  compressedProof := []
  aggVkeyHash := .zero 32
  mailboxInfo := ⟨inboxes.map Prod.fst, outboxes.map Prod.fst, inboxes.map Prod.snd,
    outboxes.map Prod.snd⟩

@[simp] theorem inboxes_proofWithMailboxes (inboxes outboxes : List (B256 × B256)) :
    (proofWithMailboxes inboxes outboxes).inboxes = inboxes :=
  (List.zip_of_prod rfl rfl).symm

@[simp] theorem outboxes_proofWithMailboxes (inboxes outboxes : List (B256 × B256)) :
    (proofWithMailboxes inboxes outboxes).outboxes = outboxes :=
  (List.zip_of_prod rfl rfl).symm

/-- A proof with a listing, where the roots of its inboxes and outboxes are given. -/
def Listing.withRoots (inRoot outRoot : UInt64 → B256 → B256) (t : Listing) : UInt64 × ProofData :=
  (t.chain, proofWithMailboxes (t.inboxChains.map fun y => (y, inRoot t.chain y))
    (t.outboxChains.map fun y => (y, outRoot t.chain y)))

@[simp] theorem Listing.listing_withRoots (inRoot outRoot : UInt64 → B256 → B256) (t : Listing) :
    listing (t.withRoots inRoot outRoot) = t := by
  simp [listing, withRoots, proofWithMailboxes, Function.comp_def]

theorem firstOutbox_iff_find {proofs : List (UInt64 × ProofData)} {x s : B256} :
    FirstOutbox proofs x s ↔
      ∃ e, (proofs.find? fun e => x ∈ (listing e).outboxChains) = some e ∧
        (x, s) ∈ e.2.outboxes := by
  induction proofs with
  | nil =>
    refine iff_of_false ?_ fun ⟨e, he, _⟩ => by cases he
    rintro ⟨before, entry, after, hsplit, -⟩
    simp at hsplit
  | cons e proofs ih =>
    rw [firstOutbox_cons_iff, List.find?_cons]
    split_ifs with hx
    · simp [listing, hx]
    · simpa [listing, hx] using ih

/-- The first lister is found whatever the roots are. -/
theorem map_listing_find (proofs : List (UInt64 × ProofData)) (x : B256) :
    (proofs.find? fun e => x ∈ (listing e).outboxChains).map listing =
      firstLister (proofs.map listing) x := by
  rw [firstLister, List.find?_map]
  rfl

/-- If the listings make the check compare right, every inbox is compared with the outbox of its
counterparty. -/
theorem ComparesRight.pairs {enc : UInt64 → B256} (henc : Function.Injective enc)
    {proofs : List (UInt64 × ProofData)} (hids : (proofs.map Prod.fst).Nodup)
    (h : ComparesRight enc (proofs.map listing)) : PairsCounterparties enc proofs := by
  rintro i hi ⟨x, r⟩ hinbox s
  rw [firstOutbox_iff_find]
  have hfind := map_listing_find proofs x
  rcases h (listing i) (List.mem_map_of_mem hi) x (List.of_mem_zip hinbox).1 with
    ⟨hself, hfirst⟩ | ⟨hnone, habsent⟩
  · -- an inbox of the chain from itself, which is the first to list the outbox
    have heq : ∀ e ∈ proofs, e.1 = i.1 → e = i := fun e he hid =>
      List.inj_on_of_nodup_map hids he hi hid
    rw [← hfind, Option.map_map] at hfirst
    obtain ⟨e, he, hid⟩ := Option.map_eq_some_iff.mp hfirst
    obtain rfl := heq e (List.mem_of_find?_eq_some he) hid
    constructor
    · rintro ⟨e', he', houtbox⟩
      obtain rfl := Option.some.inj (he.symm.trans he')
      exact ⟨e, hi, (x, s), houtbox, hself, hself, rfl⟩
    · rintro ⟨j, hj, outbox, houtbox, hfrom, hto, rfl⟩
      obtain rfl := heq j hj (henc (hfrom.symm.trans hself))
      refine ⟨j, he, ?_⟩
      have houtboxEq : outbox = (x, outbox.2) := Prod.ext (hto.trans hself.symm) rfl
      exact houtboxEq ▸ houtbox
  · rw [hnone, Option.map_eq_none_iff] at hfind
    refine iff_of_false (fun ⟨e, he, _⟩ => ?_) ?_
    · cases hfind.symm.trans he
    · rintro ⟨j, hj, outbox, houtbox, hfrom, hto, -⟩
      refine habsent (listing j) (List.mem_map_of_mem hj) hfrom.symm ?_
      change enc i.1 ∈ j.2.mailboxInfo.outboxChains
      rw [← hto]
      exact (List.of_mem_zip houtbox).1

section WithRoots

variable {enc : UInt64 → B256} {listings : List Listing} {inRoot outRoot : UInt64 → B256 → B256}

theorem wellFormed_withRoots
    (hnodup : ∀ t ∈ listings, t.inboxChains.Nodup ∧ t.outboxChains.Nodup) :
    ∀ e ∈ listings.map (Listing.withRoots inRoot outRoot), e.2.mailboxInfo.WellFormed := by
  rw [List.forall_mem_map]
  intro t ht
  obtain ⟨hin, hout⟩ := hnodup t ht
  exact ⟨by simpa [Listing.withRoots, proofWithMailboxes, Function.comp_def] using hin,
    by simpa [Listing.withRoots, proofWithMailboxes, Function.comp_def] using hout,
    by simp [Listing.withRoots, proofWithMailboxes],
    by simp [Listing.withRoots, proofWithMailboxes]⟩

theorem firstOutbox_withRoots_iff {x s : B256} :
    FirstOutbox (listings.map (Listing.withRoots inRoot outRoot)) x s ↔
      ∃ f, firstLister listings x = some f ∧ outRoot f.chain x = s := by
  have hfind : ((listings.map (Listing.withRoots inRoot outRoot)).find?
      fun e => x ∈ (listing e).outboxChains) =
        (firstLister listings x).map (Listing.withRoots inRoot outRoot) := by
    rw [List.find?_map, firstLister]
    simp only [Function.comp_def, Listing.listing_withRoots]
  rw [firstOutbox_iff_find, hfind]
  constructor
  · rintro ⟨e, he, houtbox⟩
    obtain ⟨f, hf, rfl⟩ := Option.map_eq_some_iff.mp he
    obtain ⟨y, -, hy⟩ := List.mem_map.mp (outboxes_proofWithMailboxes _ _ ▸ houtbox)
    obtain ⟨rfl, hroot⟩ := Prod.mk.inj hy
    exact ⟨f, hf, hroot⟩
  · rintro ⟨f, hf, rfl⟩
    refine ⟨_, Option.map_eq_some_iff.mpr ⟨f, hf, rfl⟩, ?_⟩
    have hlists := List.find?_some hf
    have hx : x ∈ f.outboxChains := of_decide_eq_true hlists
    rw [Listing.withRoots, outboxes_proofWithMailboxes]
    exact List.mem_map_of_mem hx

/-- The check of the listings with given roots. -/
theorem check_withRoots_iff
    (hnodup : ∀ t ∈ listings, t.inboxChains.Nodup ∧ t.outboxChains.Nodup) :
    validateMailboxConsistency (listings.map (Listing.withRoots inRoot outRoot)) = .ok () ↔
      ∀ i ∈ listings, ∀ x ∈ i.inboxChains, ∀ f, firstLister listings x = some f →
        inRoot i.chain x = outRoot f.chain x := by
  rw [validateMailboxConsistency_eq_ok_iff (wellFormed_withRoots hnodup), List.forall_mem_map]
  refine forall₂_congr fun i _ => ?_
  rw [Listing.withRoots, inboxes_proofWithMailboxes, List.forall_mem_map]
  refine forall₂_congr fun x _ => ?_
  simp only [firstOutbox_withRoots_iff]
  exact ⟨fun h f hf => h _ ⟨f, hf, rfl⟩, fun h s ⟨f, hf, hs⟩ => hs ▸ h f hf⟩

/-- The consistency of the listings with given roots. -/
theorem consistent_withRoots_iff :
    MailboxesConsistent enc (listings.map (Listing.withRoots inRoot outRoot)) ↔
      ∀ i ∈ listings, ∀ j ∈ listings, enc j.chain ∈ i.inboxChains → enc i.chain ∈ j.outboxChains →
        inRoot i.chain (enc j.chain) = outRoot j.chain (enc i.chain) := by
  unfold MailboxesConsistent
  simp only [List.forall_mem_map, Listing.withRoots, inboxes_proofWithMailboxes,
    outboxes_proofWithMailboxes]
  refine forall₄_congr fun i _ j _ => ⟨fun h hin hout => h _ hin _ hout rfl rfl, ?_⟩
  rintro h x hx y hy rfl rfl
  exact h hx hy

/-- If the check is right for all roots, the listings make it compare right: otherwise the root of
one outbox, or of one inbox, makes it wrong. -/
theorem comparesRight_of_forall_roots (henc : Function.Injective enc)
    (hnodup : ∀ t ∈ listings, t.inboxChains.Nodup ∧ t.outboxChains.Nodup)
    (h : ∀ inRoot outRoot,
      validateMailboxConsistency (listings.map (Listing.withRoots inRoot outRoot)) = .ok () ↔
        MailboxesConsistent enc (listings.map (Listing.withRoots inRoot outRoot))) :
    ComparesRight enc listings := by
  simp only [check_withRoots_iff hnodup, consistent_withRoots_iff] at h
  -- two roots that differ
  obtain ⟨a, b, hab⟩ : ∃ a b : B256, a ≠ b := ⟨.zero 32, ⟨List.replicate 32 1, rfl⟩, by decide⟩
  intro i hi x hx
  cases hfirst : firstLister listings x with
  | some f =>
    -- the outbox that is found gets the other root, and so does its counterpart
    have hchecked := (h (fun c y => if enc c = x ∧ y = enc f.chain then b else a)
      fun c y => if c = f.chain ∧ y = x then b else a).mpr ?_
    · have hsame := hchecked i hi x hx f hfirst
      by_cases hself : enc i.chain = x ∧ x = enc f.chain
      · have hchain : f.chain = i.chain := henc (hself.2.symm.trans hself.1.symm)
        exact .inl ⟨hself.1.symm, congrArg some hchain⟩
      · rw [if_neg hself, if_pos ⟨rfl, rfl⟩] at hsame
        exact absurd hsame hab
    · intro i' _ j' _ _ _
      simp only [henc.eq_iff, and_comm]
  | none =>
    -- the inbox gets another root, which is not compared
    refine .inr ⟨rfl, fun j hj hfrom hlists => hab ?_⟩
    have hconsistent := (h (fun c y => if c = i.chain ∧ y = x then b else a) fun _ _ => a).mp ?_
    · have hsame := hconsistent i hi j hj (hfrom ▸ hx) hlists
      rw [if_pos ⟨rfl, hfrom⟩] at hsame
      exact hsame.symm
    · intro i' _ y _ f hf
      refine if_neg fun hy => ?_
      rw [hy.2, hfirst] at hf
      cases hf

end WithRoots

/-- **When the mailbox check pairs the right counterparties.**  For proofs of different chains that
list no inbox and no outbox twice and have a root for each, in any iteration order, and for an
injective encoding of chain ids: the check passes exactly if no inbox has another root than the
first outbox that is listed for the same identifier.  With what the proofs list, this is the
consistency of the mailboxes for all roots if and only if every inbox is one of a chain from itself,
which is the first to list an outbox to itself, or no outbox is listed for the identifier of the
inbox and its sender lists none to its receiver.  For given roots it suffices that every inbox is
compared with the outbox of its counterparty. -/
theorem mailbox_check_right_iff (enc : UInt64 → B256) (henc : Function.Injective enc)
    (proofs : List (UInt64 × ProofData)) (hids : (proofs.map Prod.fst).Nodup)
    (hwf : ∀ e ∈ proofs, e.2.mailboxInfo.WellFormed) :
    (validateMailboxConsistency proofs = .ok () ↔
        ¬ ∃ i ∈ proofs, ∃ inbox ∈ i.2.inboxes, ∃ s, FirstOutbox proofs inbox.1 s ∧ inbox.2 ≠ s) ∧
      ((∀ proofs', proofs'.map listing = proofs.map listing →
          (∀ e ∈ proofs', e.2.mailboxInfo.WellFormed) →
          (validateMailboxConsistency proofs' = .ok () ↔ MailboxesConsistent enc proofs')) ↔
        ComparesRight enc (proofs.map listing)) ∧
      (PairsCounterparties enc proofs →
        (validateMailboxConsistency proofs = .ok () ↔ MailboxesConsistent enc proofs)) := by
  refine ⟨?_, ⟨fun h => ?_, fun h proofs' hlisting hwf' => ?_⟩,
    fun hpairs => hpairs.check_iff hwf⟩
  · rw [validateMailboxConsistency_eq_ok_iff hwf]
    push Not
    rfl
  · have hnodup : ∀ t ∈ proofs.map listing, t.inboxChains.Nodup ∧ t.outboxChains.Nodup := by
      rw [List.forall_mem_map]
      exact fun e he => ⟨(hwf e he).inbox_nodup, (hwf e he).outbox_nodup⟩
    refine comparesRight_of_forall_roots henc hnodup fun inRoot outRoot => h _ ?_ ?_
    · simp [Function.comp_def]
    · exact wellFormed_withRoots hnodup
  · have hids' : proofs'.map Prod.fst = proofs.map Prod.fst := by
      simpa [listing, Function.comp_def] using congrArg (List.map Listing.chain) hlisting
    rw [← hlisting] at h
    exact (h.pairs henc (hids' ▸ hids)).check_iff hwf'

/-- A chain id as the last eight bytes of an identifier. -/
def paddedChainId (c : UInt64) : B256 := ⟨List.replicate 24 0 ++ beBytes c, rfl⟩

theorem paddedChainId_injective : Function.Injective paddedChainId := by
  intro c c' h
  exact beBytes_injective (List.append_cancel_left (congrArg FixedBytes.bytes h))

/-- Chains 1 and 2 send each other different messages, and both receive what was sent. -/
def twoWayExchange : List (UInt64 × ProofData) :=
  [(1, proofWithMailboxes [(paddedChainId 2, paddedChainId 7)]
      [(paddedChainId 2, paddedChainId 8)]),
    (2, proofWithMailboxes [(paddedChainId 1, paddedChainId 8)]
      [(paddedChainId 1, paddedChainId 7)])]

/-- An inbox is compared with an outbox of another root, although the mailboxes are consistent. -/
theorem mailbox_check_right_iff_twoWayExchange :
    ∃ i ∈ twoWayExchange, ∃ inbox ∈ i.2.inboxes, ∃ s,
      FirstOutbox twoWayExchange inbox.1 s ∧ inbox.2 ≠ s := by
  have hrun : (twoWayExchange.map Prod.fst).Nodup ∧
      (∀ e ∈ twoWayExchange, e.2.mailboxInfo.WellFormed) ∧
      validateMailboxConsistency twoWayExchange ≠ .ok () := by
    decide +kernel
  have hpasses := (mailbox_check_right_iff paddedChainId paddedChainId_injective twoWayExchange
    hrun.1 hrun.2.1).1
  by_contra hnone
  exact hrun.2.2 (hpasses.mpr hnone)

/-- Chain 2 sends to chain 1, which receives something else. -/
def forgedInbox : List (UInt64 × ProofData) :=
  [(1, proofWithMailboxes [(paddedChainId 2, paddedChainId 7)] []),
    (2, proofWithMailboxes [] [(paddedChainId 1, paddedChainId 8)])]

/-- In both iteration orders, the consistent exchange is refused and the forged inbox is
accepted. -/
theorem mailbox_check_wrong :
    Function.Injective paddedChainId ∧
      (∀ proofs ∈ [twoWayExchange, twoWayExchange.reverse],
        MailboxesConsistent paddedChainId proofs ∧ validateMailboxConsistency proofs ≠ .ok ()) ∧
      ∀ proofs ∈ [forgedInbox, forgedInbox.reverse],
        ¬ MailboxesConsistent paddedChainId proofs ∧
          validateMailboxConsistency proofs = .ok () := by
  refine ⟨paddedChainId_injective, ?_, ?_⟩
  · decide +kernel
  · decide +kernel

end SharedPublisher
