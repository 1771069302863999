import SharedPublisher.Coordinator.Mailboxes
import SharedPublisher.Foundation.Precedence

/-!
# The mailbox check and the iteration order

The check compares an inbox with the first proof of the iteration order that lists its identifier
among the outboxes.  If two proofs list it with different roots, which of them is the first decides
whether the inbox passes, and the iteration order of a hash map is arbitrary.

So the check passes in every order exactly if every inbox agrees with all outboxes that are listed
for its identifier.  It passes in some order exactly if every inbox has a root and the proofs can be
ordered such that every proof that lists a wrong root comes after one that lists a right root for
the same identifier.  That is impossible only if some proofs block each other: each of them lists a
wrong root for an identifier that only they list rightly.
-/

namespace SharedPublisher

/-- The root of the first outbox that a proof lists for the identifier, if it has one. -/
def ProofData.outboxRoot (p : ProofData) (x : B256) : Option B256 :=
  (p.mailboxInfo.outboxChains.findIdx? fun oc => oc = x).bind
    fun outboxIdx => p.mailboxInfo.outboxRoots[outboxIdx]?

/-- Some proof has an inbox with the identifier, and this is its root, if it has one. -/
def HasInbox (proofs : List (UInt64 × ProofData)) (x : B256) (root : Option B256) : Prop :=
  ∃ e ∈ proofs, ∃ idx, (x, idx) ∈ e.2.mailboxInfo.inboxChains.zipIdx ∧
    e.2.mailboxInfo.inboxRoots[idx]? = root

/-- Some proof lists an outbox with the identifier, and this is its root, if it has one. -/
def ListsOutbox (proofs : List (UInt64 × ProofData)) (x : B256) (root : Option B256) : Prop :=
  ∃ e ∈ proofs, x ∈ e.2.mailboxInfo.outboxChains ∧ e.2.outboxRoot x = root

/-- Every inbox has a root, which is the root of all outboxes that are listed for its identifier. -/
def InboxesAgree (proofs : List (UInt64 × ProofData)) : Prop :=
  ∀ x root, HasInbox proofs x root →
    ∃ r, root = some r ∧ ∀ s, ListsOutbox proofs x (some s) → r = s

/-- All outboxes that are listed for the identifier of an inbox have the same root. -/
def OutboxesAgree (proofs : List (UInt64 × ProofData)) : Prop :=
  ∀ x root, HasInbox proofs x root →
    ∀ s s', ListsOutbox proofs x s → ListsOutbox proofs x s' → s = s'

/-- A proof lists an outbox for the identifier with another root than some inbox has. -/
def ListsWrongly (proofs : List (UInt64 × ProofData)) (e : UInt64 × ProofData) (x : B256) : Prop :=
  ∃ r s, HasInbox proofs x (some r) ∧ x ∈ e.2.mailboxInfo.outboxChains ∧
    e.2.outboxRoot x = some s ∧ r ≠ s

/-- A proof lists an outbox for the identifier, and no inbox has another root. -/
def ListsRightly (proofs : List (UInt64 × ProofData)) (e : UInt64 × ProofData) (x : B256) : Prop :=
  x ∈ e.2.mailboxInfo.outboxChains ∧ ¬ ListsWrongly proofs e x

/-- Each proof of the set lists a wrong root for some identifier, and all proofs that list a right
one are in the set. -/
def MailboxesBlocked (proofs : List (UInt64 × ProofData)) (S : Set (UInt64 × ProofData)) : Prop :=
  Precedence.Blocked (ListsWrongly proofs) (ListsRightly proofs) proofs S

variable {proofs proofs' : List (UInt64 × ProofData)} {x : B256} {root : Option B256}

/-! ## What does not depend on the order -/

theorem hasInbox_perm (h : proofs.Perm proofs') :
    HasInbox proofs x root ↔ HasInbox proofs' x root :=
  exists_congr fun _ => and_congr_left' h.mem_iff

theorem listsOutbox_perm (h : proofs.Perm proofs') :
    ListsOutbox proofs x root ↔ ListsOutbox proofs' x root :=
  exists_congr fun _ => and_congr_left' h.mem_iff

theorem InboxesAgree.perm (hagree : InboxesAgree proofs) (h : proofs.Perm proofs') :
    InboxesAgree proofs' := by
  intro x root hinbox
  obtain ⟨r, hr, hlisted⟩ := hagree x root ((hasInbox_perm h).mpr hinbox)
  exact ⟨r, hr, fun s hs => hlisted s ((listsOutbox_perm h).mpr hs)⟩

/-! ## What depends on it -/

/-- The check passes exactly if every inbox has a root, and no other one than it is compared
with. -/
theorem validateMailboxConsistency_eq_ok_iff_hasInbox :
    validateMailboxConsistency proofs = .ok () ↔
      ∀ x root, HasInbox proofs x root →
        ∃ r, root = some r ∧ ∀ s, comparedRoot proofs x = some s → r = s := by
  rw [validateMailboxConsistency, forM_eq_ok_iff]
  simp only [forM_eq_ok_iff, checkInbox_eq_ok_iff]
  constructor
  · rintro h x root ⟨e, he, idx, hidx, rfl⟩
    exact h e he (x, idx) hidx
  · rintro h e he ⟨x, idx⟩ hidx
    exact h x _ ⟨e, he, idx, hidx, rfl⟩

/-- An inbox is compared with an outbox that some proof lists, unless none does. -/
theorem comparedRoot_cases (proofs : List (UInt64 × ProofData)) (x : B256) :
    ListsOutbox proofs x (comparedRoot proofs x) ∨
      comparedRoot proofs x = none ∧ ∀ root, ¬ ListsOutbox proofs x root := by
  induction proofs with
  | nil =>
    refine .inr ⟨rfl, ?_⟩
    rintro root ⟨e, he, -⟩
    exact absurd he List.not_mem_nil
  | cons e proofs ih =>
    rw [comparedRoot_cons]
    split_ifs with hx
    · exact .inl ⟨e, List.mem_cons_self, hx, rfl⟩
    · rcases ih with ⟨e', he', hlists⟩ | ⟨hnone, hnobody⟩
      · exact .inl ⟨e', List.mem_cons_of_mem e he', hlists⟩
      · refine .inr ⟨hnone, ?_⟩
        rintro root ⟨e', he', hlists⟩
        rcases List.mem_cons.mp he' with rfl | he'
        · exact hx hlists.1
        · exact hnobody root ⟨e', he', hlists⟩

/-- Each proof that lists the identifier is the first one in some order. -/
theorem exists_perm_comparedRoot (h : ListsOutbox proofs x root) :
    ∃ proofs', proofs.Perm proofs' ∧ comparedRoot proofs' x = root := by
  obtain ⟨e, he, hx, hroot⟩ := h
  refine ⟨e :: proofs.erase e, List.perm_cons_erase he, ?_⟩
  rw [comparedRoot_cons, if_pos hx]
  exact hroot

/-- The check passes in every order exactly if every inbox agrees with all outboxes that are listed
for its identifier. -/
theorem forall_perm_ok_iff :
    (∀ proofs', proofs.Perm proofs' → validateMailboxConsistency proofs' = .ok ()) ↔
      InboxesAgree proofs := by
  constructor
  · intro hall x root hinbox
    have hpasses := validateMailboxConsistency_eq_ok_iff_hasInbox.mp (hall proofs (.refl _))
    obtain ⟨r, hr, -⟩ := hpasses x root hinbox
    refine ⟨r, hr, fun s hlisted => ?_⟩
    -- put the proof that lists the outbox first
    obtain ⟨proofs', hperm, hcompared⟩ := exists_perm_comparedRoot hlisted
    have hpasses' := validateMailboxConsistency_eq_ok_iff_hasInbox.mp (hall proofs' hperm)
    obtain ⟨r', hr', hsame⟩ := hpasses' x root ((hasInbox_perm hperm).mp hinbox)
    obtain rfl := Option.some.inj (hr.symm.trans hr')
    exact hsame s hcompared
  · intro hagree proofs' hperm
    refine validateMailboxConsistency_eq_ok_iff_hasInbox.mpr fun x root hinbox => ?_
    obtain ⟨r, hr, hlisted⟩ := hagree.perm hperm x root hinbox
    refine ⟨r, hr, fun s hs => hlisted s ?_⟩
    rcases comparedRoot_cases proofs' x with hlists | ⟨hnone, -⟩
    · exact hs ▸ hlists
    · rw [hnone] at hs
      cases hs

/-! ## When some order passes -/

/-- What proofs further back list does not matter for an identifier that is listed before. -/
theorem comparedRoot_append_of_lists {l l' : List (UInt64 × ProofData)} (h : ListsOutbox l x root) :
    comparedRoot (l ++ l') x = comparedRoot l x := by
  induction l with
  | nil =>
    obtain ⟨e, he, -⟩ := h
    exact absurd he List.not_mem_nil
  | cons d l ih =>
    rw [List.cons_append, comparedRoot_cons, comparedRoot_cons]
    split_ifs with hx
    · rfl
    · obtain ⟨e, he, hlists⟩ := h
      rcases List.mem_cons.mp he with rfl | he
      · exact absurd hlists.1 hx
      · exact ih ⟨e, he, hlists⟩

theorem comparedRoot_append_of_not_lists {l l' : List (UInt64 × ProofData)}
    (h : ∀ root, ¬ ListsOutbox l x root) : comparedRoot (l ++ l') x = comparedRoot l' x := by
  induction l with
  | nil => rfl
  | cons d l ih =>
    have hx : x ∉ d.2.mailboxInfo.outboxChains :=
      fun hx => h _ ⟨d, List.mem_cons_self, hx, rfl⟩
    rw [List.cons_append, comparedRoot_cons, if_neg hx]
    exact ih fun root ⟨e, he, hlists⟩ => h root ⟨e, List.mem_cons_of_mem d he, hlists⟩

/-- No inbox is compared with another root than its own exactly if every proof that lists a wrong
root comes after one that lists a right root for the same identifier. -/
theorem agrees_iff_ordered (l : List (UInt64 × ProofData)) :
    (∀ x r, HasInbox proofs x (some r) → ∀ s, comparedRoot l x = some s → r = s) ↔
      Precedence.Ordered (ListsWrongly proofs) (ListsRightly proofs) l := by
  induction l using List.reverseRecOn with
  | nil =>
    refine iff_of_true (fun x r _ s hs => ?_) Precedence.ordered_nil
    cases hs
  | append_singleton l e ih =>
    rw [Precedence.ordered_concat_iff, ← ih]
    constructor
    · intro h
      have hl : ∀ x r, HasInbox proofs x (some r) → ∀ s, comparedRoot l x = some s → r = s := by
        intro x r hinbox s hs
        rcases comparedRoot_cases l x with hlists | ⟨hnone, -⟩
        · exact h x r hinbox s ((comparedRoot_append_of_lists hlists).trans hs)
        · cases hnone.symm.trans hs
      refine ⟨hl, ?_⟩
      rintro x ⟨r, s, hinbox, hx, hroot, hne⟩
      rcases comparedRoot_cases l x with hlists | ⟨-, hnobody⟩
      · -- the first proof that lists the identifier lists it rightly
        obtain ⟨f, hf, hfx, hfirst⟩ := hlists
        refine ⟨f, hf, hfx, ?_⟩
        rintro ⟨r', s', hinbox', -, hroot', hne'⟩
        exact hne' (hl x r' hinbox' s' (hfirst.symm.trans hroot'))
      · refine absurd (h x r hinbox s ?_) hne
        rw [comparedRoot_append_of_not_lists hnobody, comparedRoot_cons, if_pos hx]
        exact hroot
    · rintro ⟨hl, hlast⟩ x r hinbox s hs
      rcases comparedRoot_cases l x with hlists | ⟨-, hnobody⟩
      · rw [comparedRoot_append_of_lists hlists] at hs
        exact hl x r hinbox s hs
      · rw [comparedRoot_append_of_not_lists hnobody, comparedRoot_cons] at hs
        split_ifs at hs with hx
        · by_contra hne
          obtain ⟨f, hf, hfx, -⟩ := hlast x ⟨r, s, hinbox, hx, hs, hne⟩
          exact hnobody _ ⟨f, hf, hfx, rfl⟩
        · cases hs

/-- An order passes exactly if every inbox has a root and the proofs are in order. -/
theorem ok_iff_ordered (hperm : proofs.Perm proofs') :
    validateMailboxConsistency proofs' = .ok () ↔ (∀ x, ¬ HasInbox proofs x none) ∧
      Precedence.Ordered (ListsWrongly proofs) (ListsRightly proofs) proofs' := by
  rw [validateMailboxConsistency_eq_ok_iff_hasInbox, ← agrees_iff_ordered]
  simp only [← hasInbox_perm hperm]
  constructor
  · intro h
    refine ⟨fun x hinbox => ?_, fun x r hinbox => ?_⟩
    · obtain ⟨r, hr, -⟩ := h x none hinbox
      cases hr
    · obtain ⟨r', hr', hsame⟩ := h x (some r) hinbox
      cases hr'
      exact hsame
  · rintro ⟨hroots, hagrees⟩ x (_ | r) hinbox
    · exact absurd hinbox (hroots x)
    · exact ⟨r, rfl, hagrees x r hinbox⟩

/-- No order passes exactly if an inbox has no root or some proofs block each other. -/
theorem forall_perm_ne_ok_iff :
    (∀ proofs', proofs.Perm proofs' → validateMailboxConsistency proofs' ≠ .ok ()) ↔
      (∃ x, HasInbox proofs x none) ∨ ∃ S, MailboxesBlocked proofs S := by
  have hsome : (∃ proofs', proofs.Perm proofs' ∧ validateMailboxConsistency proofs' = .ok ()) ↔
      (∀ x, ¬ HasInbox proofs x none) ∧ ¬ ∃ S, MailboxesBlocked proofs S := by
    unfold MailboxesBlocked
    rw [← Precedence.exists_perm_ordered_iff]
    constructor
    · rintro ⟨proofs', hperm, hok⟩
      obtain ⟨hroots, hordered⟩ := (ok_iff_ordered hperm).mp hok
      exact ⟨hroots, proofs', hperm, hordered⟩
    · rintro ⟨hroots, proofs', hperm, hordered⟩
      exact ⟨proofs', hperm, (ok_iff_ordered hperm).mpr ⟨hroots, hordered⟩⟩
  rw [← not_iff_not]
  push Not at hsome ⊢
  exact hsome

/-! ## When the order does not matter -/

/-- If the outboxes agree, an inbox is compared with the same root in every order. -/
theorem OutboxesAgree.comparedRoot_eq (hagree : OutboxesAgree proofs) (hperm : proofs.Perm proofs')
    (hinbox : HasInbox proofs x root) : comparedRoot proofs' x = comparedRoot proofs x := by
  rcases comparedRoot_cases proofs x with hlists | ⟨hnone, hnobody⟩
  · rcases comparedRoot_cases proofs' x with hlists' | ⟨-, hnobody'⟩
    · exact hagree x root hinbox _ _ ((listsOutbox_perm hperm).mpr hlists') hlists
    · exact absurd ((listsOutbox_perm hperm).mp hlists) (hnobody' _)
  · rcases comparedRoot_cases proofs' x with hlists' | ⟨hnone', -⟩
    · exact absurd ((listsOutbox_perm hperm).mpr hlists') (hnobody _)
    · rw [hnone, hnone']

/-- If the outboxes agree, the verdict is the same in every order. -/
theorem OutboxesAgree.ok_iff (hagree : OutboxesAgree proofs) (hperm : proofs.Perm proofs') :
    validateMailboxConsistency proofs' = .ok () ↔ validateMailboxConsistency proofs = .ok () := by
  rw [validateMailboxConsistency_eq_ok_iff_hasInbox, validateMailboxConsistency_eq_ok_iff_hasInbox]
  refine forall₂_congr fun x root => ?_
  rw [← hasInbox_perm hperm]
  refine forall_congr' fun hinbox => ?_
  rw [hagree.comparedRoot_eq hperm hinbox]

/-- **When the mailbox check does not depend on the iteration order.**  Its verdict is the same in
every order if and only if every inbox agrees with all outboxes that are listed for its identifier,
and then the check passes in every order, or some inbox has no root, or there is a set of proofs of
which each lists a wrong root for some inbox whose right listers are all in the set; in the last two
cases the check passes in no order.  It is the same, in particular, if no two proofs list an outbox
for the identifier of an inbox with different roots. -/
theorem mailbox_verdict_order_independent_iff (proofs : List (UInt64 × ProofData)) :
    ((∀ proofs', proofs.Perm proofs' →
        (validateMailboxConsistency proofs' = .ok () ↔
          validateMailboxConsistency proofs = .ok ())) ↔
      InboxesAgree proofs ∨ (∃ x, HasInbox proofs x none) ∨ ∃ S, MailboxesBlocked proofs S) ∧
      (OutboxesAgree proofs → ∀ proofs', proofs.Perm proofs' →
        (validateMailboxConsistency proofs' = .ok () ↔
          validateMailboxConsistency proofs = .ok ())) := by
  rw [← forall_perm_ne_ok_iff]
  refine ⟨⟨fun hsame => ?_, ?_⟩, fun hagree proofs' hperm => hagree.ok_iff hperm⟩
  · by_cases hpasses : validateMailboxConsistency proofs = .ok ()
    · exact .inl (forall_perm_ok_iff.mp fun proofs' hperm => (hsame proofs' hperm).mpr hpasses)
    · exact .inr fun proofs' hperm h => hpasses ((hsame proofs' hperm).mp h)
  · rintro (hagree | hnone) proofs' hperm
    · have hall := forall_perm_ok_iff.mpr hagree
      exact iff_of_true (hall proofs' hperm) (hall proofs (.refl _))
    · exact iff_of_false (hnone proofs' hperm) (hnone proofs (.refl _))

/-- Chain 1 has an inbox from chain 2, and chains 2 and 3 both list an outbox with that identifier,
the first of them with the root of the inbox. -/
def disputedOutbox : List (UInt64 × ProofData) :=
  [(1, proofWithMailboxes [(paddedChainId 2, paddedChainId 7)] []),
    (2, proofWithMailboxes [] [(paddedChainId 2, paddedChainId 7)]),
    (3, proofWithMailboxes [] [(paddedChainId 2, paddedChainId 8)])]

/-- The check passes in this order and fails in the opposite one. -/
theorem mailbox_verdict_depends_on_order :
    (disputedOutbox.map Prod.fst).Nodup ∧ disputedOutbox.Perm disputedOutbox.reverse ∧
      validateMailboxConsistency disputedOutbox = .ok () ∧
      validateMailboxConsistency disputedOutbox.reverse ≠ .ok () := by
  refine ⟨by decide +kernel, (List.reverse_perm _).symm, ?_, ?_⟩
  · decide +kernel
  · decide +kernel

end SharedPublisher
