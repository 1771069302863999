import SharedPublisher.Coordinator.Reaping

/-!
# The order of votes

A vote is ignored, counted, or closes its instance.  Which of these it is depends on the votes that
came before it: a vote that would have been counted is ignored once a no vote has closed the
instance, and of the last two yes votes the later one closes it.  The outcome of a set of votes
nevertheless does not depend on their order.

`Ballot` is what a vote does, as a function of what is stored for its instance, without the clock.
Ballots for different instances commute.  Two votes of different chains for the same instance
commute because an undecided instance that waits for both of them cannot be completed by one: the
first is counted if it is a yes and closes the instance if it is a no, whichever it is.
-/

namespace SharedPublisher

namespace CoordinatorState

variable {s s' s'' : CoordinatorState}

/-- The second state differs from the first one at most in the active instances and the
reservations. -/
def SameRest (s s' : CoordinatorState) : Prop :=
  s' = { s with activeXts := s'.activeXts, activeChains := s'.activeChains }

theorem SameRest.trans (h : s.SameRest s') (h' : s'.SameRest s'') : s.SameRest s'' := by
  unfold SameRest at h h' ⊢
  rw [h] at h'
  exact h'

/-- States that differ at most in the two tables are equal if the tables are. -/
theorem SameRest.eq (h : s.SameRest s') (h' : s.SameRest s'') (hxts : s'.activeXts = s''.activeXts)
    (hchains : s'.activeChains = s''.activeChains) : s' = s'' := by
  rw [h, h', hxts, hchains]

end CoordinatorState

/-- The instance with a yes vote of the chain. -/
def ActiveXt.withYes (xt : ActiveXt) (c : ChainId) : ActiveXt :=
  { xt with votes := xt.votes.insert c true }

/-- The order of two yes votes does not show. -/
theorem ActiveXt.withYes_comm (xt : ActiveXt) {c d : ChainId} (hcd : c ≠ d) :
    (xt.withYes c).withYes d = (xt.withYes d).withYes c := by
  simp only [withYes]
  rw [Finmap.insert_insert_of_ne _ hcd]

/-- What a vote does to the instance it is for. -/
inductive Ballot where
  | ignored
  /-- It is recorded and leaves the instance open. -/
  | counted (xt : ActiveXt)
  | closed (decision : Bool)

namespace Ballot

/-- What a yes vote does, given the instance with that vote. -/
def ofYes (xt : ActiveXt) : Ballot :=
  if xt.votes.keys.card < xt.chains.length then .counted xt
  else .closed (xt.votes.all fun _ v => v)

theorem ofYes_ne_ignored (xt : ActiveXt) : ofYes xt ≠ .ignored := by
  unfold ofYes
  split_ifs <;> simp

/-- What a vote of a chain does, given what is stored for the instance. -/
def cast (stored : Option ActiveXt) (c : ChainId) (vote : Bool) : Ballot :=
  match stored with
  | none => .ignored
  | some xt =>
    if c ∈ xt.chains ∧ c ∉ xt.votes then
      if vote then ofYes (xt.withYes c) else .closed false
    else .ignored

/-- What is stored for the instance afterwards. -/
def stored (old : Option ActiveXt) : Ballot → Option ActiveXt
  | .ignored => old
  | .counted xt => some xt
  | .closed _ => none

/-- The state afterwards. -/
def applyTo (s : CoordinatorState) (x : String) : Ballot → CoordinatorState
  | .ignored => s
  | .counted xt => { s with activeXts := s.activeXts.insert x xt }
  | .closed _ => s.closeXt x

/-- The decision that is announced, with the bytes of the vote. -/
def announcements (bytes : List UInt8) : Ballot → List Proto.Message
  | .closed decision => [.ofPublisher (.decided ⟨bytes, decision⟩)]
  | _ => []

variable {old : Option ActiveXt} {xt : ActiveXt} {c d : ChainId} {v w : Bool}

/-- A vote that the instance waits for. -/
theorem cast_of_awaited (h : c ∈ xt.chains ∧ c ∉ xt.votes) (v : Bool) :
    cast (some xt) c v = if v then ofYes (xt.withYes c) else .closed false := if_pos h

/-- A vote is ignored exactly if the instance does not wait for it. -/
theorem cast_eq_ignored_iff :
    cast old c v = .ignored ↔ ∀ xt, old = some xt → ¬ (c ∈ xt.chains ∧ c ∉ xt.votes) := by
  rcases old with - | xt
  · exact iff_of_true rfl fun xt h => by cases h
  · constructor
    · rintro h xt' ⟨⟩ hawaited
      rw [cast_of_awaited hawaited] at h
      cases v with
      | false => cases h
      | true => exact ofYes_ne_ignored _ h
    · exact fun h => if_neg (h xt rfl)

/-! ## What a ballot changes -/

variable {s : CoordinatorState} {x y : String}

/-- What is stored for an instance after a ballot. -/
theorem applyTo_activeXts (b : Ballot) (s : CoordinatorState) (x y : String) :
    (b.applyTo s x).activeXts.lookup y =
      if y = x then b.stored (s.activeXts.lookup x) else s.activeXts.lookup y := by
  cases b with
  | ignored =>
    split_ifs with hyx
    · rw [hyx]
      rfl
    · rfl
  | counted xt => exact HashMap.lookup_insert_eq _ _ _ _
  | closed decision =>
    rw [applyTo, CoordinatorState.closeXt_activeXts]
    exact HashMap.lookup_erase_eq _ _ _

/-- The reservations after a ballot: if it closes its instance, those of the instance are gone. -/
theorem applyTo_activeChains (b : Ballot) (s : CoordinatorState) (x z : String) (c : ChainId) :
    (b.applyTo s x).activeChains.lookup c = some z ↔
      s.activeChains.lookup c = some z ∧
        ¬ ((∃ decision, b = .closed decision) ∧ z = x ∧ s.Holds x c) := by
  cases b with
  | ignored => simp [applyTo]
  | counted xt => simp [applyTo]
  | closed decision => simp [applyTo, CoordinatorState.closeXt_activeChains]

/-- A ballot changes nothing but the active instances and the reservations. -/
theorem applyTo_sameRest (b : Ballot) (s : CoordinatorState) (x : String) :
    s.SameRest (b.applyTo s x) := by
  cases b with
  | ignored => rfl
  | counted xt => rfl
  | closed decision => exact s.foldl_closeXt_eq [x]

/-- A ballot for one instance leaves the chains of the others alone. -/
theorem applyTo_holds (b : Ballot) (hyx : y ≠ x) :
    (b.applyTo s x).Holds y c ↔ s.Holds y c := by
  simp only [CoordinatorState.Holds, applyTo_activeXts, if_neg hyx]

/-- Ballots for different instances commute. -/
theorem applyTo_comm (b b' : Ballot) (hyx : y ≠ x) :
    b'.applyTo (b.applyTo s x) y = b.applyTo (b'.applyTo s y) x := by
  have hxts : (b'.applyTo (b.applyTo s x) y).activeXts =
      (b.applyTo (b'.applyTo s y) x).activeXts := by
    apply Finmap.ext_lookup
    intro z
    simp only [applyTo_activeXts, if_neg hyx, if_neg hyx.symm]
    split_ifs with hzy hzx
    · exact absurd (hzy.symm.trans hzx) hyx
    all_goals rfl
  have hchains : (b'.applyTo (b.applyTo s x) y).activeChains =
      (b.applyTo (b'.applyTo s y) x).activeChains := by
    apply Finmap.ext_lookup
    intro c
    apply Option.ext
    intro z
    rw [applyTo_activeChains, applyTo_activeChains, applyTo_activeChains, applyTo_activeChains,
      b.applyTo_holds hyx, b'.applyTo_holds hyx.symm]
    exact and_right_comm
  exact ((b.applyTo_sameRest s x).trans (b'.applyTo_sameRest _ y)).eq
    ((b'.applyTo_sameRest s y).trans (b.applyTo_sameRest _ x)) hxts hchains

/-- After a vote was counted, a ballot that is not ignored does what it would have done before. -/
theorem applyTo_applyTo_counted {b : Ballot} (hb : b ≠ .ignored)
    (hactive : s.activeXts.lookup x = some xt) (xt' : ActiveXt)
    (hchains : xt'.chains = xt.chains) :
    b.applyTo ((counted xt').applyTo s x) x = b.applyTo s x := by
  cases b with
  | ignored => exact absurd rfl hb
  | counted xt'' =>
    simp only [applyTo]
    rw [Finmap.insert_insert]
  | closed decision => exact CoordinatorState.closeXt_insert hactive hchains

/-! ## Two votes for the same instance -/

/-- A vote that is ignored is also ignored after any other vote. -/
theorem cast_stored_of_ignored (h : cast old c v = .ignored) :
    cast ((cast old d w).stored old) c v = .ignored := by
  rcases old with - | xt
  · rfl
  have hc : ¬ (c ∈ xt.chains ∧ c ∉ xt.votes) := cast_eq_ignored_iff.mp h xt rfl
  by_cases hd : d ∈ xt.chains ∧ d ∉ xt.votes
  · rw [cast_of_awaited hd]
    cases w with
    | false => rfl
    | true =>
      simp only [if_true, ofYes]
      split_ifs
      · refine cast_eq_ignored_iff.mpr ?_
        rintro xt' ⟨⟩ hc'
        exact hc ⟨hc'.1, fun hvoted => hc'.2 (Finmap.mem_insert.mpr (.inr hvoted))⟩
      · rfl
  · have hignored : cast (some xt) d w = .ignored := if_neg hd
    rw [hignored]
    exact h

/-- A yes vote does not complete an instance that also waits for another chain. -/
theorem ofYes_of_other (hundecided : xt.Undecided) (hc : c ∈ xt.chains)
    (hd : d ∈ xt.chains ∧ d ∉ xt.votes) (hcd : c ≠ d) :
    ofYes (xt.withYes c) = .counted (xt.withYes c) := by
  refine if_pos (Nat.lt_of_not_le fun hfull => ?_)
  rcases (hundecided.length_le_card_iff hc).mp hfull d hd.1 with hdc | hvoted
  · exact hcd hdc.symm
  · exact hd.2 hvoted

/-- After the yes vote of one chain, an instance still waits for the other one. -/
theorem awaited_withYes (hd : d ∈ xt.chains ∧ d ∉ xt.votes) (hcd : c ≠ d) :
    d ∈ (xt.withYes c).chains ∧ d ∉ (xt.withYes c).votes := by
  refine ⟨hd.1, fun hmem => ?_⟩
  rcases Finmap.mem_insert.mp hmem with hdc | hvoted
  · exact hcd hdc.symm
  · exact hd.2 hvoted

end Ballot

namespace CoordinatorState

variable {s : CoordinatorState} {v w : Proto.Vote}

/-- What a vote does in a state. -/
def ballot (s : CoordinatorState) (v : Proto.Vote) : Ballot :=
  .cast (s.activeXts.lookup (hexEncode v.instanceId)) v.chainId v.vote

/-- The state after a vote. -/
def castVote (s : CoordinatorState) (v : Proto.Vote) : CoordinatorState :=
  (s.ballot v).applyTo s (hexEncode v.instanceId)

/-- What a vote announces. -/
def announced (s : CoordinatorState) (v : Proto.Vote) : List Proto.Message :=
  (s.ballot v).announcements v.instanceId

/-- `record_vote` does what the ballot says, whatever the clock shows. -/
theorem recordVote_eq_ballot (s : CoordinatorState) (v : Proto.Vote) (now : Instant) :
    (s.recordVote (hexEncode v.instanceId) v.instanceId v.chainId v.vote now).1 = s.castVote v ∧
      (s.recordVote (hexEncode v.instanceId) v.instanceId v.chainId v.vote now).2.toList.map
        (fun decided => decided.2.2) = s.announced v := by
  unfold castVote announced ballot
  rcases s.recordVote_cases (hexEncode v.instanceId) v.instanceId v.chainId v.vote now with
    ⟨hignored, hreason⟩ | ⟨xt, hactive, hmember, hnew, hrest⟩
  · rw [hignored, Ballot.cast_eq_ignored_iff.mpr fun xt hxt hc => hc.2 (hreason xt hxt hc.1)]
    exact ⟨rfl, rfl⟩
  · have hawaited : v.chainId ∈ xt.chains ∧ v.chainId ∉ xt.votes := ⟨hmember, hnew⟩
    rcases hrest with ⟨hyes, hopen, hcounted⟩ | ⟨decision, hdecision, hdecided⟩
    · have hballot : Ballot.ofYes (xt.withYes v.chainId) = .counted (xt.withYes v.chainId) :=
        if_pos hopen
      rw [hcounted, hactive, hyes, Ballot.cast_of_awaited hawaited, if_pos rfl, hballot]
      exact ⟨rfl, rfl⟩
    · rw [hdecided, hactive]
      rcases hdecision with ⟨hno, rfl⟩ | ⟨hyes, hfull, rfl⟩
      · rw [hno, Ballot.cast_of_awaited hawaited]
        exact ⟨rfl, rfl⟩
      · have hballot : Ballot.ofYes (xt.withYes v.chainId) =
            .closed ((xt.withYes v.chainId).votes.all fun _ v => v) :=
          if_neg (Nat.not_lt.mpr hfull)
        rw [hyes, Ballot.cast_of_awaited hawaited, if_pos rfl, hballot]
        exact ⟨rfl, rfl⟩

/-- A vote keeps a state tidy. -/
theorem tidy_castVote (h : Tidy s) (v : Proto.Vote) : Tidy (s.castVote v) := by
  rw [← (s.recordVote_eq_ballot v 0).1]
  exact h.transition (s.recordVote_transition Config.defaults v.instanceId v.chainId v.vote 0)

/-- The ballot of a vote after a vote for another instance. -/
theorem ballot_castVote_of_ne (h : hexEncode w.instanceId ≠ hexEncode v.instanceId) :
    (s.castVote v).ballot w = s.ballot w := by
  rw [ballot, castVote, Ballot.applyTo_activeXts, if_neg h]
  rfl

/-- The ballot of a vote after a vote for the same instance. -/
theorem ballot_castVote_of_eq (h : w.instanceId = v.instanceId) :
    (s.castVote v).ballot w =
      .cast ((s.ballot v).stored (s.activeXts.lookup (hexEncode v.instanceId)))
        w.chainId w.vote := by
  rw [ballot, castVote, Ballot.applyTo_activeXts, h, if_pos rfl]

/-- Two votes may be exchanged: either way the state is the same, and the same is announced. -/
structure Exchange (s : CoordinatorState) (v w : Proto.Vote) : Prop where
  state : (s.castVote v).castVote w = (s.castVote w).castVote v
  announced : (s.announced v ++ (s.castVote v).announced w).Perm
    (s.announced w ++ (s.castVote w).announced v)

theorem Exchange.symm (h : s.Exchange v w) : s.Exchange w v :=
  ⟨h.state.symm, h.announced.symm⟩

/-- Votes for different instances may be exchanged. -/
theorem exchange_of_instance_ne (h : w.instanceId ≠ v.instanceId) : s.Exchange v w := by
  have hkey : hexEncode w.instanceId ≠ hexEncode v.instanceId := fun heq =>
    h (hexEncode_injective heq)
  refine ⟨?_, ?_⟩
  · change ((s.castVote v).ballot w).applyTo ((s.ballot v).applyTo s _) _ =
      ((s.castVote w).ballot v).applyTo ((s.ballot w).applyTo s _) _
    rw [ballot_castVote_of_ne hkey, ballot_castVote_of_ne hkey.symm]
    exact Ballot.applyTo_comm _ _ hkey
  · rw [announced, announced, announced, announced, ballot_castVote_of_ne hkey,
      ballot_castVote_of_ne hkey.symm]
    exact List.perm_append_comm

/-- A vote that is ignored may be exchanged with any other for the same instance. -/
theorem exchange_of_ignored (hinstance : w.instanceId = v.instanceId)
    (h : s.ballot v = .ignored) : s.Exchange v w := by
  have hsame : s.castVote v = s := by
    rw [castVote, h]
    rfl
  have hstill : (s.castVote w).ballot v = .ignored := by
    rw [ballot_castVote_of_eq hinstance.symm, hinstance]
    rw [ballot] at h
    rw [ballot, hinstance]
    exact Ballot.cast_stored_of_ignored h
  refine ⟨?_, ?_⟩
  · have hthen : (s.castVote w).castVote v = s.castVote w := by
      rw [castVote, hstill]
      rfl
    rw [hsame, hthen]
  · rw [hsame, announced, announced, announced, hstill, h]
    exact List.Perm.of_eq (List.append_nil _).symm

section Awaited

variable {xt : ActiveXt} {bytes : List UInt8} {c d : ChainId}

/-- The ballot of a vote for an active instance. -/
theorem ballot_of_active (hactive : s.activeXts.lookup (hexEncode bytes) = some xt) (c : ChainId)
    (vote : Bool) : s.ballot ⟨bytes, c, vote⟩ = .cast (some xt) c vote := by
  rw [ballot, hactive]

/-- The ballot of a vote for an active instance, after another vote for it. -/
theorem ballot_castVote_of_active (hactive : s.activeXts.lookup (hexEncode bytes) = some xt)
    (c d : ChainId) (vote vote' : Bool) :
    (s.castVote ⟨bytes, c, vote⟩).ballot ⟨bytes, d, vote'⟩ =
      .cast ((Ballot.cast (some xt) c vote).stored (some xt)) d vote' := by
  have hthen := @ballot_castVote_of_eq s ⟨bytes, c, vote⟩ ⟨bytes, d, vote'⟩ rfl
  rw [ballot_of_active hactive, hactive] at hthen
  exact hthen

/-- A no vote that an undecided instance waits for may be exchanged with another vote that it waits
for: the no vote closes the instance, and the other one changes nothing about that. -/
theorem exchange_no (hundecided : xt.Undecided)
    (hactive : s.activeXts.lookup (hexEncode bytes) = some xt) (hcd : c ≠ d)
    (hc : c ∈ xt.chains ∧ c ∉ xt.votes) (hd : d ∈ xt.chains ∧ d ∉ xt.votes) (vote : Bool) :
    s.Exchange ⟨bytes, c, false⟩ ⟨bytes, d, vote⟩ := by
  have hno := ballot_of_active hactive c false
  have hother := ballot_of_active hactive d vote
  have hthen := ballot_castVote_of_active hactive c d false vote
  have hthen' := ballot_castVote_of_active hactive d c vote false
  rw [Ballot.cast_of_awaited hc] at hno hthen
  rw [Ballot.cast_of_awaited hd] at hother hthen'
  cases vote with
  | false =>
    -- both close the instance, and the later one is ignored
    constructor
    · simp only [castVote, hno, hother] at hthen hthen' ⊢
      rw [hthen, hthen']
      rfl
    · simp only [announced, hno, hother, hthen, hthen']
      rfl
  | true =>
    have hcounted := Ballot.ofYes_of_other hundecided hd.1 hc hcd.symm
    have hawaited := Ballot.awaited_withYes hc hcd.symm
    simp only [if_true, hcounted, Ballot.stored, Ballot.cast_of_awaited hawaited] at hother hthen'
    constructor
    · simp only [castVote, hno, hother] at hthen hthen' ⊢
      rw [hthen, hthen']
      exact (Ballot.applyTo_applyTo_counted (b := .closed false) (by simp) hactive
        (xt.withYes d) rfl).symm
    · simp only [announced, hno, hother, hthen, hthen']
      rfl

/-- Two yes votes that an undecided instance waits for may be exchanged: the first one is counted,
and the second one meets the same votes in both orders. -/
theorem exchange_yes (hundecided : xt.Undecided)
    (hactive : s.activeXts.lookup (hexEncode bytes) = some xt) (hcd : c ≠ d)
    (hc : c ∈ xt.chains ∧ c ∉ xt.votes) (hd : d ∈ xt.chains ∧ d ∉ xt.votes) :
    s.Exchange ⟨bytes, c, true⟩ ⟨bytes, d, true⟩ := by
  have hfirst := ballot_of_active hactive c true
  have hfirst' := ballot_of_active hactive d true
  have hthen := ballot_castVote_of_active hactive c d true true
  have hthen' := ballot_castVote_of_active hactive d c true true
  rw [Ballot.cast_of_awaited hc, if_pos rfl, Ballot.ofYes_of_other hundecided hc.1 hd hcd]
    at hfirst hthen
  rw [Ballot.cast_of_awaited hd, if_pos rfl, Ballot.ofYes_of_other hundecided hd.1 hc hcd.symm]
    at hfirst' hthen'
  rw [Ballot.stored, Ballot.cast_of_awaited (Ballot.awaited_withYes hd hcd), if_pos rfl] at hthen
  rw [Ballot.stored, Ballot.cast_of_awaited (Ballot.awaited_withYes hc hcd.symm), if_pos rfl,
    ← xt.withYes_comm hcd] at hthen'
  have hnot := Ballot.ofYes_ne_ignored ((xt.withYes c).withYes d)
  constructor
  · have hleft := Ballot.applyTo_applyTo_counted hnot hactive (xt.withYes c) rfl
    have hright := Ballot.applyTo_applyTo_counted hnot hactive (xt.withYes d) rfl
    simp only [castVote, hfirst, hfirst'] at hthen hthen' ⊢
    rw [hthen, hthen', hleft, hright]
  · simp only [announced, hfirst, hfirst', hthen, hthen']
    rfl

/-- Two votes that an undecided instance waits for may be exchanged. -/
theorem exchange_of_awaited (hundecided : xt.Undecided)
    (hactive : s.activeXts.lookup (hexEncode bytes) = some xt) (hcd : c ≠ d)
    (hc : c ∈ xt.chains ∧ c ∉ xt.votes) (hd : d ∈ xt.chains ∧ d ∉ xt.votes) (vote vote' : Bool) :
    s.Exchange ⟨bytes, c, vote⟩ ⟨bytes, d, vote'⟩ := by
  cases vote with
  | false => exact exchange_no hundecided hactive hcd hc hd vote'
  | true =>
    cases vote' with
    | false => exact (exchange_no hundecided hactive hcd.symm hd hc true).symm
    | true => exact exchange_yes hundecided hactive hcd hc hd

end Awaited

/-- Votes of different chains, or for different instances, may be exchanged in a tidy state. -/
theorem exchange (h : Tidy s) (hapart : (v.instanceId, v.chainId) ≠ (w.instanceId, w.chainId)) :
    s.Exchange v w := by
  by_cases hinstance : w.instanceId = v.instanceId
  · have hchain : v.chainId ≠ w.chainId := fun heq =>
      hapart (Prod.ext hinstance.symm heq)
    by_cases hv : s.ballot v = .ignored
    · exact exchange_of_ignored hinstance hv
    by_cases hw : s.ballot w = .ignored
    · exact (exchange_of_ignored hinstance.symm hw).symm
    -- the instance waits for both votes
    rw [ballot, Ballot.cast_eq_ignored_iff] at hv hw
    push Not at hv hw
    obtain ⟨xt, hactive, hv⟩ := hv
    obtain ⟨xt', hactive', hw⟩ := hw
    rw [hinstance, hactive] at hactive'
    cases hactive'
    obtain ⟨bytes, c, vote⟩ := v
    obtain ⟨bytes', d, vote'⟩ := w
    cases hinstance
    exact exchange_of_awaited (h.undecided _ xt hactive) hactive hchain hv hw vote vote'
  · exact exchange_of_instance_ne hinstance

/-! ## Lists of votes -/

/-- Records votes one after the other, each with its own reading of the clock, and collects what is
announced. -/
def recordVotes (s : CoordinatorState) :
    List (Proto.Vote × Instant) → CoordinatorState × List Proto.Message
  | [] => (s, [])
  | (v, now) :: rest =>
    let one := s.recordVote (hexEncode v.instanceId) v.instanceId v.chainId v.vote now
    let more := one.1.recordVotes rest
    (more.1, one.2.toList.map (fun decided => decided.2.2) ++ more.2)

/-- The same without the clock. -/
def castVotes (s : CoordinatorState) : List Proto.Vote → CoordinatorState × List Proto.Message
  | [] => (s, [])
  | v :: rest =>
    let more := (s.castVote v).castVotes rest
    (more.1, s.announced v ++ more.2)

/-- The clock does not matter. -/
theorem recordVotes_eq_castVotes (s : CoordinatorState) (vs : List (Proto.Vote × Instant)) :
    s.recordVotes vs = s.castVotes (vs.map Prod.fst) := by
  induction vs generalizing s with
  | nil => rfl
  | cons head rest ih =>
    obtain ⟨v, now⟩ := head
    obtain ⟨hstate, hannounced⟩ := s.recordVote_eq_ballot v now
    simp only [recordVotes, List.map_cons, castVotes]
    rw [hstate, hannounced, ih]

/-- The instance and the chain of a vote. -/
def voter (v : Proto.Vote) : List UInt8 × ChainId := (v.instanceId, v.chainId)

/-- In a tidy state, permuting votes of different voters changes neither the final state nor what is
announced on the way. -/
theorem castVotes_perm {vs ws : List Proto.Vote} (hperm : vs.Perm ws) :
    ∀ s, Tidy s → (vs.map voter).Nodup →
      (s.castVotes vs).1 = (s.castVotes ws).1 ∧ (s.castVotes vs).2.Perm (s.castVotes ws).2 := by
  induction hperm with
  | nil => exact fun s _ _ => ⟨rfl, .refl _⟩
  | cons v _ ih =>
    intro s htidy hnodup
    rw [List.map_cons, List.nodup_cons] at hnodup
    obtain ⟨hstate, hannounced⟩ := ih _ (tidy_castVote htidy v) hnodup.2
    exact ⟨hstate, hannounced.append_left _⟩
  | swap v w rest =>
    intro s htidy hnodup
    have hapart : voter w ≠ voter v := by
      rw [List.map_cons, List.map_cons, List.nodup_cons] at hnodup
      exact fun heq => hnodup.1 (heq ▸ List.mem_cons_self)
    have hexchange := exchange htidy hapart
    simp only [castVotes]
    rw [hexchange.state, ← List.append_assoc, ← List.append_assoc]
    exact ⟨rfl, hexchange.announced.append_right _⟩
  | trans hfirst _ ih ih' =>
    intro s htidy hnodup
    obtain ⟨hstate, hannounced⟩ := ih s htidy hnodup
    obtain ⟨hstate', hannounced'⟩ := ih' s htidy ((hfirst.map voter).nodup_iff.mp hnodup)
    exact ⟨hstate.trans hstate', hannounced.trans hannounced'⟩

end CoordinatorState

/-- **The order of votes does not matter.**  In every state of every run, votes of which no two are
from the same chain for the same instance lead, in any two orders and whatever the clock shows at
each of them, to the same state and to the same announcements up to their order. -/
theorem votes_in_any_order {cfg : Config} (r : cfg.Run) (n : ℕ)
    (vs ws : List (Proto.Vote × Instant)) (hperm : (vs.map Prod.fst).Perm (ws.map Prod.fst))
    (hnodup : ((vs.map Prod.fst).map CoordinatorState.voter).Nodup) :
    ((r.state n).recordVotes vs).1 = ((r.state n).recordVotes ws).1 ∧
      ((r.state n).recordVotes vs).2.Perm ((r.state n).recordVotes ws).2 := by
  rw [CoordinatorState.recordVotes_eq_castVotes, CoordinatorState.recordVotes_eq_castVotes]
  exact CoordinatorState.castVotes_perm hperm (r.state n) (r.tidy n) hnodup

/-- The bytes of the first of the two instances. -/
def twoStartsId : List UInt8 :=
  (generateInstanceId sha256 0 1 (protoToSpecXt transferRequest)).bytes

/-- Both chains of that instance vote yes, in either order: the instance is committed by whichever
vote comes last. -/
theorem votes_twoStarts_either_order :
    ((twoStarts.state 2).recordVotes
        [(⟨twoStartsId, 1, true⟩, 60), (⟨twoStartsId, 2, true⟩, 70)]).2 =
      [.ofPublisher (.decided ⟨twoStartsId, true⟩)] ∧
    ((twoStarts.state 2).recordVotes
        [(⟨twoStartsId, 1, true⟩, 60), (⟨twoStartsId, 2, true⟩, 70)]).1 =
      ((twoStarts.state 2).recordVotes
        [(⟨twoStartsId, 2, true⟩, 80), (⟨twoStartsId, 1, true⟩, 90)]).1 := by
  refine ⟨by decide +kernel, ?_⟩
  refine (votes_in_any_order twoStarts 2 _ _ ?_ (by decide +kernel)).1
  exact .swap _ _ _

end SharedPublisher
