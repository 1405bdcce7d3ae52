/-
# Peer.Membership — membership changes keep a peer's configuration valid

`propose_membership` checks an operation against the committed configuration, the raft core
computes what becomes of it when the change commits, and `validate_conf` judges the result,
when it is applied and when a checkpoint that carries it is read again.
-/
import MatrixRaft.Peer.Checkpoint
import MatrixRaft.Theory.Statistic

namespace MatrixRaft.Peer
open Theory List Attempt

/-! ## Valid configurations -/

structure ValidPart (permitted values : List Nat) : Prop where
  nodup : values.Nodup
  permitted : ∀ id ∈ values, id ∈ permitted

structure ValidConf (permitted : List Nat) (conf : ConfState) : Prop where
  voters : ValidPart permitted conf.voters
  votersOutgoing : ValidPart permitted conf.votersOutgoing
  learners : ValidPart permitted conf.learners
  learnersNext : ValidPart permitted conf.learnersNext
  present : conf.voters ≠ []
  votersCount : conf.voters.length ≤ 7
  outgoingCount : conf.votersOutgoing.length ≤ 7
  votersLearners : ∀ id ∈ conf.voters, id ∉ conf.learners
  outgoingLearners : ∀ id ∈ conf.votersOutgoing, id ∉ conf.learners
  votersNext : ∀ id ∈ conf.voters, id ∉ conf.learnersNext
  learnersNextApart : ∀ id ∈ conf.learners, id ∉ conf.learnersNext
  nextOutgoing : ∀ id ∈ conf.learnersNext, id ∈ conf.votersOutgoing
  explicit : conf.autoLeave = false

theorem ValidConf.simple_next {conf : ConfState} {permitted : List Nat}
    (valid : ValidConf permitted conf) (simple : conf.votersOutgoing = []) :
    conf.learnersNext = [] := by
  refine eq_nil_iff_forall_not_mem.mpr fun id member => ?_
  have outgoing := valid.nextOutgoing id member
  grind

theorem validateConf_eq_ok_iff {conf : ConfState} {permitted : List Nat} :
    validateConf conf permitted = .ok () ↔ ValidConf permitted conf := by
  unfold validateConf
  simp only [Checks.ite_eq_ok, and_true]
  constructor
  · rintro ⟨parts, whole⟩
    simp only [any_cons, any_nil, Bool.or_false, Bool.or_eq_true, decide_eq_true_eq,
      any_eq_true, not_or, Decidable.not_not, not_exists, not_and, disjoint,
      all_eq_true, not_lt, Bool.not_eq_true] at parts whole
    obtain ⟨voters, outgoing, learners, next⟩ := parts
    obtain ⟨present, votersCount, outgoingCount, votersLearners, outgoingLearners, votersNext,
      apart, nextOutgoing, -, explicit⟩ := whole
    exact ⟨⟨voters.1, voters.2⟩, ⟨outgoing.1, outgoing.2⟩, ⟨learners.1, learners.2⟩,
      ⟨next.1, next.2⟩, present, votersCount, outgoingCount, votersLearners, outgoingLearners,
      votersNext, apart, nextOutgoing, explicit⟩
  · intro valid
    constructor
    · simp only [any_cons, any_nil, Bool.or_false, Bool.or_eq_true, decide_eq_true_eq,
        any_eq_true, not_or, Decidable.not_not, not_exists, not_and]
      grind [valid.voters.nodup, valid.voters.permitted, valid.votersOutgoing.nodup,
        valid.votersOutgoing.permitted, valid.learners.nodup, valid.learners.permitted,
        valid.learnersNext.nodup, valid.learnersNext.permitted]
    · simp only [not_or, Decidable.not_not, not_and, disjoint, all_eq_true, not_lt,
        Bool.not_eq_true, decide_eq_true_eq]
      exact ⟨valid.present, valid.votersCount, valid.outgoingCount, valid.votersLearners,
        valid.outgoingLearners, valid.votersNext, valid.learnersNextApart, valid.nextOutgoing,
        fun empty => ⟨valid.simple_next empty, valid.explicit⟩, valid.explicit⟩

namespace ValidPart
variable {permitted values : List Nat} {id : Nat}

theorem filter (valid : ValidPart permitted values) (keep : Nat → Bool) :
    ValidPart permitted (values.filter keep) :=
  ⟨valid.nodup.filter keep, fun other member =>
    valid.permitted other (mem_of_mem_filter member)⟩

theorem push (valid : ValidPart permitted values) (fresh : id ∉ values) (listed : id ∈ permitted) :
    ValidPart permitted (values ++ [id]) := by
  refine ⟨nodup_append.mpr ⟨valid.nodup, nodup_singleton id, ?_⟩, ?_⟩
  · grind
  · grind [valid.permitted]

theorem of_same {list : List Nat} (valid : ValidPart permitted values)
    (same : list.Nodup ∧ ∀ id, id ∈ list ↔ id ∈ values) :
    ValidPart permitted list ∧ list.length = values.length :=
  ⟨⟨same.1, fun id member => valid.permitted id ((same.2 id).mp member)⟩,
    ((perm_ext_iff_of_nodup same.1 valid.nodup).mpr same.2).length_eq⟩

end ValidPart

/-! ## Each change keeps the configuration valid -/

namespace ValidConf
variable {permitted : List Nat} {conf : ConfState} {id : Nat}

section
variable (valid : ValidConf permitted conf)

include valid

theorem of_sameMembers {conf' : ConfState}
    (same : conf.SameMembers conf') : ValidConf permitted conf' := by
  obtain ⟨voters, votersLength⟩ := valid.voters.of_same same.voters
  obtain ⟨outgoing, outgoingLength⟩ := valid.votersOutgoing.of_same same.votersOutgoing
  obtain ⟨learners, -⟩ := valid.learners.of_same same.learners
  obtain ⟨next, -⟩ := valid.learnersNext.of_same same.learnersNext
  have fromVoters := fun id => (same.voters.2 id).mp
  have fromOutgoing := fun id => (same.votersOutgoing.2 id).mp
  have fromLearners := fun id => (same.learners.2 id).mp
  have fromNext := fun id => (same.learnersNext.2 id).mp
  refine ⟨voters, outgoing, learners, next, ?_, votersLength ▸ valid.votersCount,
    outgoingLength ▸ valid.outgoingCount, ?_, ?_, ?_, ?_, ?_,
    same.autoLeave.trans valid.explicit⟩
  · intro empty
    rw [empty] at votersLength
    exact valid.present (length_eq_zero_iff.mp votersLength.symm)
  · grind [valid.votersLearners]
  · grind [valid.outgoingLearners]
  · exact fun id voter next => valid.votersNext id (fromVoters id voter) (fromNext id next)
  · exact fun id learner next =>
      valid.learnersNextApart id (fromLearners id learner) (fromNext id next)
  · exact fun id next =>
      (same.votersOutgoing.2 id).mpr (valid.nextOutgoing id (fromNext id next))

theorem exists_other_of_fresh (fresh : id ∉ conf.voters) : ∃ voter ∈ conf.voters, voter ≠ id := by
  obtain ⟨voter, member⟩ := exists_mem_of_ne_nil _ valid.present
  exact ⟨voter, member, fun same => fresh (same ▸ member)⟩

theorem exists_other (several : conf.voters.length ≠ 1)
    (id : Nat) : ∃ voter ∈ conf.voters, voter ≠ id := by
  by_contra none
  have alone : ∀ voter ∈ conf.voters, voter = id := by grind
  have replicated := eq_replicate_iff.mpr ⟨rfl, alone⟩
  have single : conf.voters.length ≤ 1 :=
    nodup_replicate.mp (replicated ▸ valid.voters.nodup)
  have present : 0 < conf.voters.length := length_pos_iff.mpr valid.present
  omega

theorem left : ValidConf permitted conf.left where
  voters := valid.voters
  votersOutgoing := ⟨nodup_nil, nofun⟩
  learners := by
    refine ⟨nodup_append.mpr ⟨valid.learners.nodup, valid.learnersNext.nodup, ?_⟩, ?_⟩
    · exact fun id learner other next same =>
        valid.learnersNextApart id learner (same ▸ next)
    intro id member
    rcases mem_append.mp member with learner | next
    · exact valid.learners.permitted id learner
    · exact valid.learnersNext.permitted id next
  learnersNext := ⟨nodup_nil, nofun⟩
  present := valid.present
  votersCount := valid.votersCount
  outgoingCount := Nat.zero_le 7
  votersLearners := by
    intro id voter member
    rcases mem_append.mp member with learner | next
    · exact valid.votersLearners id voter learner
    · exact valid.votersNext id voter next
  outgoingLearners := nofun
  votersNext := fun _ _ => nofun
  learnersNextApart := fun _ _ => nofun
  nextOutgoing := nofun
  explicit := rfl

theorem joint (simple : conf.votersOutgoing = []) : ValidConf permitted (conf.joint false) where
  voters := valid.voters
  votersOutgoing := valid.voters
  learners := valid.learners
  learnersNext := valid.learnersNext
  present := valid.present
  votersCount := valid.votersCount
  outgoingCount := valid.votersCount
  votersLearners := valid.votersLearners
  outgoingLearners := valid.votersLearners
  votersNext := valid.votersNext
  learnersNextApart := valid.learnersNextApart
  nextOutgoing := by
    show ∀ id ∈ conf.learnersNext, id ∈ conf.voters
    rw [valid.simple_next simple]
    nofun
  explicit := rfl

theorem without (others : ∃ voter ∈ conf.voters, voter ≠ id) :
    ValidConf permitted (conf.without id) where
  voters := valid.voters.filter _
  votersOutgoing := valid.votersOutgoing
  learners := valid.learners.filter _
  learnersNext := valid.learnersNext.filter _
  present := by
    obtain ⟨voter, member, other⟩ := others
    exact ne_nil_of_mem (mem_filter.mpr ⟨member, by simpa using other⟩)
  votersCount := (length_filter_le _ _).trans valid.votersCount
  outgoingCount := valid.outgoingCount
  votersLearners := fun id voter learner =>
    valid.votersLearners id (mem_of_mem_filter voter) (mem_of_mem_filter learner)
  outgoingLearners := fun id outgoing learner =>
    valid.outgoingLearners id outgoing (mem_of_mem_filter learner)
  votersNext := fun id voter next =>
    valid.votersNext id (mem_of_mem_filter voter) (mem_of_mem_filter next)
  learnersNextApart := fun id learner next =>
    valid.learnersNextApart id (mem_of_mem_filter learner) (mem_of_mem_filter next)
  nextOutgoing := fun id next => valid.nextOutgoing id (mem_of_mem_filter next)
  explicit := valid.explicit

theorem withVoter (listed : id ∈ permitted)
    (fresh : id ∉ conf.voters) (room : conf.voters.length < 7) :
    ValidConf permitted (conf.withVoter id) := by
  -- as far as the learners go, the new voter is taken out
  have rest := valid.without (valid.exists_other_of_fresh fresh)
  refine ⟨⟨valid.voters.nodup.insert, fun other member => ?_⟩, rest.votersOutgoing, rest.learners,
    rest.learnersNext, ne_nil_of_mem mem_insert_self, ?_, rest.outgoingCount, ?_,
    rest.outgoingLearners, ?_, rest.learnersNextApart, rest.nextOutgoing, rest.explicit⟩
  · rcases mem_insert_iff.mp member with rfl | voter
    · exact listed
    · exact valid.voters.permitted other voter
  · show (conf.voters.insert id).length ≤ 7
    grind
  · intro other voter learner
    obtain ⟨learner, apart⟩ := mem_filter.mp learner
    rcases mem_insert_iff.mp voter with rfl | voter
    · simp at apart
    · exact valid.votersLearners other voter learner
  · intro other voter next
    obtain ⟨next, apart⟩ := mem_filter.mp next
    rcases mem_insert_iff.mp voter with rfl | voter
    · simp at apart
    · exact valid.votersNext other voter next

theorem withLearner (listed : id ∈ permitted)
    (simple : conf.votersOutgoing = []) (fresh : id ∉ conf.voters) :
    ValidConf permitted (conf.withLearner id) := by
  unfold ConfState.withLearner
  split
  · exact valid
  rw [if_neg (by simp [simple])]
  have rest := valid.without (valid.exists_other_of_fresh fresh)
  have absent : id ∉ (conf.without id).learners := by simp [ConfState.without]
  have next : (conf.without id).learnersNext = [] := rest.simple_next simple
  refine ⟨rest.voters, rest.votersOutgoing, rest.learners.push absent listed, rest.learnersNext,
    rest.present, rest.votersCount, rest.outgoingCount, ?_, ?_, rest.votersNext, ?_,
    rest.nextOutgoing, rest.explicit⟩
  · intro other voter learner
    rcases mem_append.mp learner with learner | added
    · exact rest.votersLearners other voter learner
    · rw [mem_singleton.mp added] at voter
      exact fresh (mem_of_mem_filter voter)
  · intro other outgoing
    rw [show (conf.without id).votersOutgoing = [] from simple] at outgoing
    cases outgoing
  · intro other _
    rw [next]
    nofun

end
end ValidConf

/-- A quorum of the core: a majority of the voters, and of the outgoing ones of a joint
configuration. -/
def ConfState.Quorum (conf : ConfState) (ids : Finset Nat) : Prop :=
  ∀ half ∈ [conf.voters, conf.votersOutgoing], half ≠ [] →
    half.toFinset.card / 2 + 1 ≤ (ids ∩ half.toFinset).card

/-! ## The changes that are proposed -/

/-- The changes `propose_membership` makes of its operations, with what it has checked. -/
inductive Admissible (permitted : List Nat) (conf : ConfState) : ConfChangeV2 → Prop where
  | leave (joint : conf.votersOutgoing ≠ []) : Admissible permitted conf ⟨0, [], []⟩
  | addLearner {id : Nat} (simple : conf.votersOutgoing = []) (listed : id ∈ permitted)
      (fresh : id ∉ conf.voters) : Admissible permitted conf ⟨0, [⟨2, id⟩], []⟩
  | promote {id : Nat} (simple : conf.votersOutgoing = []) (listed : id ∈ permitted)
      (learner : id ∈ conf.learners) (room : conf.voters.length < 7) :
      Admissible permitted conf ⟨2, [⟨0, id⟩], []⟩
  | removeVoter {id : Nat} (simple : conf.votersOutgoing = []) (listed : id ∈ permitted)
      (others : conf.voters.length ≠ 1) : Admissible permitted conf ⟨2, [⟨1, id⟩], []⟩
  | removeLearner {id : Nat} (simple : conf.votersOutgoing = []) (listed : id ∈ permitted)
      (fresh : id ∉ conf.voters) : Admissible permitted conf ⟨0, [⟨1, id⟩], []⟩

namespace Admissible
variable {permitted : List Nat} {conf : ConfState} {change : ConfChangeV2}

/-- **One admitted change.** It is carried out, and a valid configuration stays valid. -/
theorem changed_valid (admitted : Admissible permitted conf change)
    (valid : ValidConf permitted conf) :
    ∃ conf', conf.changed change = some conf' ∧ ValidConf permitted conf' := by
  have voting : ∀ {reached : ConfState}, ValidConf permitted reached →
      reached.voting = some reached := fun reached => if_neg reached.present
  cases admitted with
  | leave joint =>
    refine ⟨conf.left, ?_, valid.left⟩
    rw [ConfState.changed, if_pos ⟨rfl, rfl⟩, if_neg joint]
  | @addLearner id simple listed fresh =>
    have reached : ValidConf permitted (conf.single ⟨2, id⟩) := by
      unfold ConfState.single
      split
      · exact valid
      · exact valid.withLearner listed simple fresh
    grind [ConfState.changed]
  | @promote id simple listed learner room =>
    have reached : ValidConf permitted ((conf.joint false).single ⟨0, id⟩) := by
      unfold ConfState.single
      split
      · exact valid.joint simple
      · exact (valid.joint simple).withVoter listed
          (fun voter => valid.votersLearners id voter learner) room
    grind [ConfState.changed, valid.present]
  | @removeVoter id simple listed others =>
    have reached : ValidConf permitted ((conf.joint false).single ⟨1, id⟩) := by
      unfold ConfState.single
      split
      · exact valid.joint simple
      · exact (valid.joint simple).without (valid.exists_other others id)
    grind [ConfState.changed, valid.present]
  | @removeLearner id simple listed fresh =>
    have reached : ValidConf permitted (conf.single ⟨1, id⟩) := by
      unfold ConfState.single
      split
      · exact valid
      · exact valid.without (valid.exists_other_of_fresh fresh)
    grind [ConfState.changed]

/-- The voters before an admitted change are one of the two halves after it. -/
theorem voters_stay {conf' : ConfState} (admitted : Admissible permitted conf change)
    (carried : conf.changed change = some conf') :
    conf.voters ∈ [conf'.voters, conf'.votersOutgoing] := by
  have apart {id : Nat} (fresh : id ∉ conf.voters) : conf.voters.filter (· ≠ id) = conf.voters :=
    filter_eq_self.mpr (by grind)
  cases admitted <;> grind [ConfState.changed, ConfState.left, ConfState.single, ConfState.voting,
    ConfState.withLearner, ConfState.withVoter, ConfState.without, ConfState.joint]

theorem decodeChange_eq (admitted : Admissible permitted conf change) (enabled : permitted ≠ [])
    {wire : Wire} {entry : Entry} (kind : entry.entryType = entryConfChangeV2)
    (data : entry.data = wire.change.encode change) (short : entry.data.length ≤ 1024) :
    decodeChange wire entry permitted = .ok change := by
  unfold decodeChange
  rw [if_neg (by simp [enabled, kind, short]), data, wire.change.decode_encode]
  dsimp only
  cases admitted <;> simp_all

end Admissible

/-! ## Committed entries -/

namespace DurablePeer
variable {σ κ : Type} [MemStorage σ] [RawNode σ κ]

def reconfigured (peer : DurablePeer σ κ) (conf : ConfState) (raw : κ) : DurablePeer σ κ :=
  let node := peer.options.nodeId
  let localVoter := node ∈ conf.voters ∨ node ∈ conf.votersOutgoing
  { peer with
    store := { peer.store with memory := MemStorage.setConfState conf peer.store.memory }
    raw :=
      if ¬ localVoter ∧ RawNode.state σ raw ≠ .follower then
        RawNode.becomeFollower σ (RawNode.term σ raw) 0 raw
      else raw
    pendingRead := none }

/-- `apply_committed`: an ordinary entry goes to the application, a change of configuration to the
core and the storage. -/
def applyCommitted (wire : Wire) (host : Host) (entry : Entry) : PeerM σ κ Unit := fun peer =>
  if entry.entryType = entryNormal then
    let id : LogId := { term := entry.term, index := entry.index }
    (do
      outcome (host.apply peer.history id entry.data)
      note (.applied id entry.data) : PeerM σ κ Unit) peer
  else match decodeChange wire entry peer.store.permitted with
    | .error refusal => (.error (.invalid refusal), peer)
    | .ok change =>
      match RawNode.applyConfChange peer.store change peer.raw with
      | (none, raw) => (.error (.invalid .core), { peer with raw := raw })
      | (some conf, raw) =>
        match validateConf conf peer.store.permitted with
        | .error error => (.error error, { peer with raw := raw })
        | .ok () => (.ok (), peer.reconfigured conf raw)

def DocumentedChanger (peer : DurablePeer σ κ) : Prop :=
  ∀ change result, peer.confState.changed change = some result →
    ∃ conf raw, RawNode.applyConfChange peer.store change peer.raw = (some conf, raw) ∧
      result.SameMembers conf

/-! ## Admitted changes -/

variable {peer : DurablePeer σ κ} {operation : MembershipChange}

omit [MemStorage σ] in
theorem leading_bind_ok {α : Type} {rest : Unit → PeerM σ κ α} {value : α}
    {after : DurablePeer σ κ} (ran : (leading >>= rest) peer = (.ok value, after)) :
    rest () peer = (.ok value, after) := by
  rw [bind_apply] at ran
  unfold leading at ran
  grind

theorem proposeMembership_admitted {id : LogId} {after : DurablePeer σ κ}
    (ran : proposeMembership operation peer = (.ok id, after)) :
    peer.store.permitted ≠ [] ∧ ∃ change, peer.membershipChange operation = .ok change := by
  obtain ⟨-, ran⟩ := refuse_bind_ok ran
  obtain ⟨enabled, ran⟩ := refuse_bind_ok ran
  obtain ⟨-, ran⟩ := refuse_bind_ok (leading_bind_ok ran)
  refine ⟨by simpa using enabled, ?_⟩
  rcases decided : peer.membershipChange operation with error | change
  · have refused : (outcome (.error error) : PeerM σ κ ConfChangeV2) peer = (.error error, peer) :=
      rfl
    rw [bind_apply] at ran
    simp only [get, decided, bind_error refused] at ran
    cases ran
  · exact ⟨change, rfl⟩

theorem membershipChange_admissible {change : ConfChangeV2}
    (admitted : peer.membershipChange operation = .ok change) :
    Admissible peer.store.permitted peer.confState change := by
  unfold membershipChange at admitted
  split at admitted
  · cases admitted
  · rename_i decided
    cases admitted
    -- only leaving the joint phase changes no member
    cases operation <;> unfold memberChange at decided <;> dsimp only at decided
    case leaveJoint =>
      split at decided
      · cases decided
      · rename_i joint
        exact .leave (by simpa using joint)
    all_goals
      split at decided
      · cases decided
      · split at decided <;> cases decided
  · rename_i id kind joint decided
    split at admitted
    · cases admitted
    rename_i listed
    cases admitted
    have listed : id ∈ peer.store.permitted := Decidable.not_not.mp listed
    cases operation with
    | leaveJoint =>
      unfold memberChange at decided
      grind
    | addLearner =>
      unfold memberChange at decided
      simp only [Checks.ite_eq_ok] at decided
      obtain ⟨simple, fresh, same⟩ := decided
      cases same
      exact .addLearner (by simpa using simple) listed fun voter => fresh (.inl voter)
    | promote =>
      unfold memberChange at decided
      simp only [Checks.ite_eq_ok, not_or] at decided
      obtain ⟨simple, ⟨learner, room, -⟩, same⟩ := decided
      cases same
      exact .promote (by simpa using simple) listed (by simpa using learner) (by simpa using room)
    | remove id =>
      unfold memberChange at decided
      simp only [Checks.ite_eq_ok, not_or, not_and] at decided
      obtain ⟨simple, ⟨-, others⟩, same⟩ := decided
      have simple : peer.confState.votersOutgoing = [] := by simpa using simple
      by_cases voter : id ∈ peer.confState.voters
      · simp only [voter, decide_true, Except.ok.injEq, Option.some.injEq, Prod.mk.injEq] at same
        obtain ⟨rfl, rfl, rfl⟩ := same
        exact .removeVoter simple listed (others voter)
      · simp only [voter, decide_false, Except.ok.injEq, Option.some.injEq, Prod.mk.injEq] at same
        obtain ⟨rfl, rfl, rfl⟩ := same
        exact .removeLearner simple listed voter

/-! ## Applying an admitted change -/

/-- The position and the size of a checkpoint are ones a journal takes. -/
def Sized (wire : Wire) (snapshot : Snapshot) : Prop :=
  0 < snapshot.getMetadata.index ∧ snapshot.getMetadata.index < u64Max ∧
    0 < snapshot.getMetadata.term ∧ snapshot.getMetadata.term < u64Max ∧
    snapshot.data.length ≤ maxCheckpointBytes ∧
    (wire.encodeSnapshot snapshot).length ≤ snapshotEncodedLimit - 1024

structure Restorable (wire : Wire) (peer : DurablePeer σ κ) : Prop where
  accepted : ∀ snapshot : Snapshot, snapshot.getMetadata.getConfState = peer.confState →
    Sized wire snapshot →
    validateSnapshotFor wire snapshot peer.options.voters peer.store.permitted = .ok ()
  found : peer.journal.permitted = peer.store.permitted →
    ∀ {files : Payloads} {data : Bytes} {payload : Option Blob} {index : Nat}
      {saved : DurablePeer σ κ},
      checkpointPayloadAt wire data payload index none peer = (.ok (), saved) →
      (∀ manifest, wire.manifest.encode manifest = [] → manifest = default) →
      (∀ blob ∈ payload, Available wire files blob) → payload.isSome ∨ data ≠ [] →
      ∀ locked, ∃ (journal : Journal) (restored : PeerStorage σ),
        Journal.open wire files saved.options locked (some saved.journal.bytes)
            (freshStore saved.options saved.store.permitted) = (.ok journal, restored) ∧
          MemStorage.confState restored.memory = peer.confState

theorem Restorable.of_valid [LawfulMemStorage σ] {wire : Wire} (enabled : peer.store.permitted ≠ [])
    (valid : validateConf peer.confState peer.store.permitted = .ok ()) : Restorable wire peer where
  accepted := by
    rintro snapshot carried ⟨indexed, indexBound, termed, termBound, size, encoded⟩
    unfold validateSnapshotFor
    grind
  found := by
    intro same files data payload index saved ran bare available held locked
    obtain ⟨snapshot, suffix, rfl, carried, publishes⟩ := checkpointPayloadAt_publishes ran
    obtain ⟨journal, restored, opened, -, conf⟩ := publishes.opens same bare available held locked
    exact ⟨journal, restored, opened, conf.trans carried⟩

theorem special {entry : Entry} (kind : entry.entryType = entryConfChangeV2) :
    entry.entryType ≠ entryNormal := by
  rw [kind]
  decide

theorem applyCommitted_admissible [LawfulMemStorage σ] {wire : Wire} {change : ConfChangeV2}
    (admitted : Admissible peer.store.permitted peer.confState change)
    (enabled : peer.store.permitted ≠ [])
    (valid : ValidConf peer.store.permitted peer.confState) (documented : peer.DocumentedChanger)
    (host : Host) {entry : Entry} (kind : entry.entryType = entryConfChangeV2)
    (data : entry.data = wire.change.encode change) (short : entry.data.length ≤ 1024) :
    ∃ conf raw, applyCommitted wire host entry peer = (.ok (), peer.reconfigured conf raw) ∧
      (∃ result, peer.confState.changed change = some result ∧ result.SameMembers conf) ∧
      validateConf conf peer.store.permitted = .ok () := by
  obtain ⟨result, carried, resultValid⟩ := admitted.changed_valid valid
  obtain ⟨conf, raw, applied, same⟩ := documented change result carried
  have accepted : validateConf conf peer.store.permitted = .ok () :=
    validateConf_eq_ok_iff.mpr (resultValid.of_sameMembers same)
  refine ⟨conf, raw, ?_, ⟨result, carried, same⟩, accepted⟩
  unfold applyCommitted
  simp only [if_neg (special kind), admitted.decodeChange_eq enabled kind data short, applied, accepted]

/-- **Membership changes keep the configuration valid.** A change admitted from a valid configuration
is applied when it commits, leads to a valid one, and is read again from the journal, as is a
checkpoint of the configuration. -/
theorem membership_change_stays_valid [LawfulMemStorage σ] (wire : Wire) {id : LogId}
    {after : DurablePeer σ κ} (valid : validateConf peer.confState peer.store.permitted = .ok ())
    (admitted : proposeMembership operation peer = (.ok id, after)) :
    ∃ change, peer.membershipChange operation = .ok change ∧
      ∀ (later : DurablePeer σ κ) (host : Host) (entry : Entry),
        later.confState = peer.confState → later.store.permitted = peer.store.permitted →
        later.DocumentedChanger → entry.entryType = entryConfChangeV2 →
        entry.data = wire.change.encode change → entry.data.length ≤ 1024 →
        ∃ applied, applyCommitted wire host entry later = (.ok (), applied) ∧
          (∃ result, peer.confState.changed change = some result ∧
            result.SameMembers applied.confState) ∧ applied.store.permitted = peer.store.permitted ∧
          validateConf applied.confState peer.store.permitted = .ok () ∧
          checkChange wire peer.store.permitted entry = .ok () ∧ applied.Restorable wire := by
  obtain ⟨enabled, change, decided⟩ := proposeMembership_admitted admitted
  refine ⟨change, decided, ?_⟩
  intro later host entry sameConf samePermitted documented kind data short
  have admissible := membershipChange_admissible decided
  rw [← sameConf, ← samePermitted] at admissible valid
  rw [← samePermitted] at enabled
  obtain ⟨conf, raw, applied, same, accepted⟩ := applyCommitted_admissible admissible enabled
    (validateConf_eq_ok_iff.mp valid) documented host kind data short
  have stored : (later.reconfigured conf raw).confState = conf :=
    LawfulMemStorage.confState_setConfState _ _
  rw [← sameConf, ← samePermitted]
  refine ⟨_, applied, ?_, rfl, ?_, ?_, ?_⟩
  · rw [stored]
    exact same
  · rw [stored]
    exact accepted
  · unfold checkChange
    rw [if_neg (special kind), admissible.decodeChange_eq enabled kind data short]
  refine .of_valid enabled ?_
  rw [stored]
  exact accepted

def oneOfTwo : DurablePeer LogImage SettledCore :=
  { oneEntryPeer with
    store := { oneEntryPeer.store with permitted := [1, 2] }, journal := .reopened [1, 2] [] }

theorem settledCore_documented (peer : DurablePeer LogImage SettledCore) :
    peer.DocumentedChanger := by
  intro change result carried
  refine ⟨result.once, peer.raw, ?_, result.once_sameMembers⟩
  show (((peer.confState).changed change).map ConfState.once, peer.raw) = _
  rw [carried]
  rfl

/-- An application that takes everything. -/
def readyHost : Host where
  apply _ _ _ := .ok ()

def changeEntry (change : ConfChangeV2) : Entry :=
  { (default : Entry) with
    entryType := entryConfChangeV2, data := protobuf.change.encode change }

/-- The second member joins as a learner. -/
theorem second_member_stays_valid :
    ∃ change applied, oneOfTwo.membershipChange (.addLearner 2) = .ok change ∧
      applyCommitted protobuf readyHost (changeEntry change) oneOfTwo = (.ok (), applied) ∧
      validateConf applied.confState [1, 2] = .ok () ∧ applied.Restorable protobuf := by
  have admitted : (proposeMembership (.addLearner 2) oneOfTwo).1 = .ok ⟨1, 2⟩ := by decide +kernel
  obtain ⟨change, decided, applies⟩ := membership_change_stays_valid protobuf
    (by decide +kernel) (ran_of_ok admitted)
  have known : oneOfTwo.membershipChange (.addLearner 2) = .ok ⟨0, [⟨2, 2⟩], []⟩ := by
    decide +kernel
  cases known.symm.trans decided
  obtain ⟨applied, ran, -, -, valid, -, restorable⟩ := applies oneOfTwo readyHost
    (changeEntry ⟨0, [⟨2, 2⟩], []⟩) rfl rfl (settledCore_documented oneOfTwo) rfl rfl
    (by decide +kernel)
  exact ⟨_, applied, decided, ran, valid, restorable⟩

/-! ## Quorums across a change -/

/-- **Quorums meet across a change.** A change that a peer admits is carried out, and every quorum
before it shares a member with every quorum after it. -/
theorem quorums_meet_across_change {change : ConfChangeV2}
    (valid : validateConf peer.confState peer.store.permitted = .ok ())
    (admitted : peer.membershipChange operation = .ok change) :
    ∃ conf, peer.confState.changed change = some conf ∧ ∀ old new, peer.confState.Quorum old →
      conf.Quorum new → (old ∩ new).Nonempty := by
  have admissible := membershipChange_admissible admitted
  have valid := validateConf_eq_ok_iff.mp valid
  obtain ⟨conf, carried, -⟩ := admissible.changed_valid valid
  refine ⟨conf, carried, fun old new before after => ?_⟩
  obtain ⟨id, shared⟩ := majorities_meet Finset.inter_subset_right Finset.inter_subset_right
    (before _ (by simp) valid.present) (after _ (admissible.voters_stay carried) valid.present)
  exact ⟨id, by grind⟩

theorem quorums_meet_as_second_joins :
    ∃ conf, oneOfTwo.confState.changed ⟨0, [⟨2, 2⟩], []⟩ = some conf ∧ ∀ old new,
      oneOfTwo.confState.Quorum old → conf.Quorum new → (old ∩ new).Nonempty :=
  @quorums_meet_across_change _ _ _ _ oneOfTwo (.addLearner 2) _ (by decide +kernel)
    (by decide +kernel)

end DurablePeer
end MatrixRaft.Peer
