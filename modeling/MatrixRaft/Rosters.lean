/-
# Rosters — which replicas a change of membership leaves

Taking the membership a snapshot or a record describes drops the replicas it does not
name, gives the named ones their described roles, and adds empty replicas for the rest.
What stays, stays with its state.
-/
import MatrixRaft.AppendRule
import MatrixRaft.Members

namespace MatrixRaft
open Std (TreeMap)
open Theory

namespace RaftCluster
variable {s s' : RaftCluster}

/-! ## One replica forgotten -/

theorem forgetPeer_eq (s : RaftCluster) (nodeId : Nat) (reason : String) :
    ∃ transfer aborted, s.forgetPeer nodeId reason = { s with
      nodes := s.nodes.erase nodeId
      peerPipelines := s.peerPipelines.erase nodeId
      snapshotInstallers := s.snapshotInstallers.erase nodeId
      pendingSnapshots := s.pendingSnapshots.erase nodeId
      reorderQueues := s.reorderQueues.erase nodeId
      voteResponses := s.voteResponses.erase nodeId
      preVoteResponses := s.preVoteResponses.erase nodeId
      leaderTransfer := transfer
      abortedLeaderTransfers := aborted } := by
  unfold forgetPeer abortLeaderTransfer
  dsimp only
  split
  · split <;> exact ⟨_, _, rfl⟩
  · exact ⟨_, _, rfl⟩

variable {nodeId : Nat}

theorem Cached.erase {P : AppendEntriesRequest → Prop} (cached : Cached P s)
    (queues : s'.reorderQueues = s.reorderQueues.erase nodeId) : Cached P s' := by
  intro target queue held
  rw [queues, TreeMap.getElem?_erase] at held
  split at held
  · cases held
  · exact cached target queue held

/-- The peers of `gone` are forgotten; the rest stays. -/
structure Forgets (gone : Nat → Prop) (s s' : RaftCluster) : Prop where
  nodes : ∀ nodeId : Nat, (gone nodeId → s'.nodes[nodeId]? = none) ∧
    (¬ gone nodeId → s'.nodes[nodeId]? = s.nodes[nodeId]?)
  cached : ∀ P : AppendEntriesRequest → Prop, Cached P s → Cached P s'
  currentTerm : s'.currentTerm = s.currentTerm
  lastLogIndex : s'.lastLogIndex = s.lastLogIndex
  commitIndex : s'.commitIndex = s.commitIndex

namespace Forgets

theorem forgetPeer (s : RaftCluster) (nodeId : Nat) (reason : String) :
    Forgets (· = nodeId) s (s.forgetPeer nodeId reason) := by
  obtain ⟨transfer, aborted, eq⟩ := forgetPeer_eq s nodeId reason
  rw [eq]
  refine ⟨fun other => ⟨?_, fun apart => ?_⟩, fun P cached => cached.erase rfl, rfl, rfl, rfl⟩
  all_goals grind

theorem refl (s : RaftCluster) : Forgets (fun _ => False) s s :=
  ⟨fun _ => ⟨False.elim, fun _ => rfl⟩, fun _ cached => cached, rfl, rfl, rfl⟩

theorem vacated {gone : Nat → Prop} (forgets : Forgets gone s s') :
    Forgets gone s s'.vacateLeadership :=
  ⟨forgets.nodes, forgets.cached, forgets.currentTerm, forgets.lastLogIndex, forgets.commitIndex⟩

theorem trans {gone gone' : Nat → Prop} {s'' : RaftCluster} (first : Forgets gone s s')
    (second : Forgets gone' s' s'') : Forgets (fun nodeId => gone nodeId ∨ gone' nodeId) s s'' where
  nodes := fun nodeId => by
    by_cases later : gone' nodeId
    · grind [second.nodes]
    rw [(second.nodes nodeId).2 later]
    refine ⟨fun either => (first.nodes nodeId).1 (either.resolve_right later), fun kept => ?_⟩
    grind [first.nodes]
  cached := fun P cached => second.cached P (first.cached P cached)
  currentTerm := second.currentTerm.trans first.currentTerm
  lastLogIndex := second.lastLogIndex.trans first.lastLogIndex
  commitIndex := second.commitIndex.trans first.commitIndex

theorem congr {gone gone' : Nat → Prop} (same : ∀ nodeId, gone nodeId ↔ gone' nodeId)
    (forgets : Forgets gone s s') : Forgets gone' s s' := by
  have eq : gone = gone' := funext fun nodeId => propext (same nodeId)
  rwa [eq] at forgets

theorem dropUnlisted (s : RaftCluster) (nodeId : Nat) :
    Forgets (· = nodeId) s (s.dropUnlisted nodeId) := by
  have forgotten := forgetPeer s nodeId "snapshot_membership_removed_transferee"
  unfold RaftCluster.dropUnlisted
  split
  · exact forgotten.vacated
  · exact forgotten

theorem foldl_dropUnlisted : ∀ (nodeIds : List Nat) (s : RaftCluster),
    Forgets (· ∈ nodeIds) s (nodeIds.foldl RaftCluster.dropUnlisted s)
  | [], s => (refl s).congr fun nodeId => by simp
  | first :: rest, s =>
    ((dropUnlisted s first).trans (foldl_dropUnlisted rest (s.dropUnlisted first))).congr
      fun nodeId => by simp

end Forgets

/-! ## Replicas listed -/

def reassigned (node : Node) (role : ReplicaRole) (autoPromote : Bool) (raftRole : StateRole) :
    Node :=
  { node with replicaRole := role, autoPromote := autoPromote, raftRole := raftRole }

structure Filled (ids : List Nat) (nodes nodes' : TreeMap Nat Node) : Prop where
  kept : ∀ (nodeId : Nat) (node : Node), nodes[nodeId]? = some node →
    ∃ role autoPromote raftRole, nodes'[nodeId]? = some (reassigned node role autoPromote raftRole)
  new : ∀ (nodeId : Nat) (node' : Node), nodes[nodeId]? = none → nodes'[nodeId]? = some node' →
    nodeId ∈ ids ∧ ∃ role autoPromote raftRole,
      node' = reassigned (Node.new nodeId .voter false) role autoPromote raftRole

namespace Filled
variable {ids : List Nat} {nodes nodes' nodes'' : TreeMap Nat Node}

theorem refl (ids : List Nat) (nodes : TreeMap Nat Node) : Filled ids nodes nodes :=
  ⟨fun _ node held => ⟨node.replicaRole, node.autoPromote, node.raftRole, held⟩,
    fun _ _ absent held => by rw [absent] at held; cases held⟩

theorem trans (first : Filled ids nodes nodes') (second : Filled ids nodes' nodes'') :
    Filled ids nodes nodes'' where
  kept := fun nodeId node held => by
    obtain ⟨_, _, _, held'⟩ := first.kept nodeId node held
    obtain ⟨role, autoPromote, raftRole, held''⟩ := second.kept nodeId _ held'
    exact ⟨role, autoPromote, raftRole, held''⟩
  new := fun nodeId node'' absent held'' => by
    rcases held' : nodes'[nodeId]? with _ | node'
    · exact second.new nodeId node'' held' held''
    obtain ⟨listed, _, _, _, rfl⟩ := first.new nodeId node' absent held'
    obtain ⟨role, autoPromote, raftRole, found⟩ := second.kept nodeId _ held'
    rw [held''] at found
    cases found
    exact ⟨listed, role, autoPromote, raftRole, rfl⟩

variable (nodes : TreeMap Nat Node)

theorem insert {added : Node} (listed : nodeId ∈ ids)
    (absent : nodes[nodeId]? = none) (empty : ∃ role autoPromote raftRole,
      added = reassigned (Node.new nodeId .voter false) role autoPromote raftRole) :
    Filled ids nodes (nodes.insert nodeId added) := by
  refine ⟨fun other node held => ?_, fun other node' absent' held' => ?_⟩
  · rw [TreeMap.getElem?_insert, if_neg]
    · exact ⟨node.replicaRole, node.autoPromote, node.raftRole, held⟩
    · grind
  · grind

theorem listedMember {peer : Peer} (listed : peer.nodeId ∈ ids) :
    Filled ids nodes (RaftCluster.listedMember nodes peer) := by
  unfold RaftCluster.listedMember
  rcases found : nodes[peer.nodeId]? with _ | member
  · exact insert nodes listed found ⟨_, _, _, rfl⟩
  refine ⟨fun nodeId node held => ?_, fun nodeId node' absent held' => ?_⟩
  · rw [TreeMap.getElem?_insert]
    split
    · rename_i same
      obtain rfl := compare_eq_iff_eq.mp same
      obtain rfl := Option.some.inj (found.symm.trans held)
      exact ⟨_, _, _, rfl⟩
    · exact ⟨node.replicaRole, node.autoPromote, node.raftRole, held⟩
  · grind

theorem insertNew (listed : nodeId ∈ ids) :
    Filled ids nodes (nodes.insertIfNew nodeId (Node.new nodeId .voter false)) := by
  refine ⟨fun other node held => ?_, fun other node' absent held' => ?_⟩
  · rw [TreeMap.getElem?_insertIfNew, if_neg]
    · exact ⟨node.replicaRole, node.autoPromote, node.raftRole, held⟩
    · grind
  · rw [TreeMap.getElem?_insertIfNew] at held'
    split at held'
    · rename_i placed
      obtain rfl := compare_eq_iff_eq.mp placed.1
      cases held'
      exact ⟨listed, _, _, _, rfl⟩
    · grind

theorem foldl {α : Type} {step : TreeMap Nat Node → α → TreeMap Nat Node} :
    ∀ (xs : List α) (nodes : TreeMap Nat Node), (∀ x ∈ xs, ∀ nodes, Filled ids nodes (step nodes x)) →
      Filled ids nodes (xs.foldl step nodes)
  | [], nodes, _ => .refl ids nodes
  | x :: xs, nodes, each =>
    (each x (by simp) nodes).trans (foldl xs (step nodes x) fun y member => each y (by simp [member]))

end Filled

/-! ## The described membership -/

section Relisted
variable {target : Nat} {membership : List Nat} {members : List Peer}

def relisted (s : RaftCluster) (target : Nat) (membership : List Nat) (members : List Peer) :
    RaftCluster :=
  let retained := s.retainedIds target membership members
  let dropped := (s.nodes.keys.filter fun nodeId => !retained.contains nodeId).foldl dropUnlisted s
  { dropped with
    nodes := retained.foldl
      (fun nodes nodeId => nodes.insertIfNew nodeId (Node.new nodeId .voter false))
      (members.foldl listedMember dropped.nodes) }

theorem relisted_forgets (s : RaftCluster) (target : Nat) (membership : List Nat)
    (members : List Peer) :
    Forgets (fun nodeId => nodeId ∈ s.nodes ∧ nodeId ∉ s.retainedIds target membership members) s
      ((s.nodes.keys.filter fun nodeId =>
        !(s.retainedIds target membership members).contains nodeId).foldl dropUnlisted s) :=
  (Forgets.foldl_dropUnlisted _ s).congr fun nodeId => by simp

theorem relisted_filled (s : RaftCluster) (target : Nat) (membership : List Nat)
    (members : List Peer) : Filled (s.retainedIds target membership members)
      ((s.nodes.keys.filter fun nodeId =>
        !(s.retainedIds target membership members).contains nodeId).foldl dropUnlisted s).nodes
      (s.relisted target membership members).nodes := by
  refine (Filled.foldl members _ fun peer member nodes => .listedMember nodes ?_).trans
    (Filled.foldl _ _ fun nodeId member nodes => .insertNew nodes member)
  grind [retainedIds]

theorem relisted_from {node' : Node}
    (held' : (s.relisted target membership members).nodes[nodeId]? = some node') :
    ∃ node role autoPromote raftRole, node' = reassigned node role autoPromote raftRole ∧
      (s.nodes[nodeId]? = some node ∨
        s.nodes[nodeId]? = none ∧ node = Node.new nodeId .voter false) := by
  have forgets := (relisted_forgets s target membership members).nodes nodeId
  have filled := relisted_filled s target membership members
  rcases found : ((s.nodes.keys.filter fun nodeId =>
      !(s.retainedIds target membership members).contains nodeId).foldl dropUnlisted s).nodes[nodeId]?
    with _ | node
  · obtain ⟨listed, role, autoPromote, raftRole, rfl⟩ := filled.new nodeId node' found held'
    refine ⟨_, role, autoPromote, raftRole, rfl, .inr ⟨?_, rfl⟩⟩
    -- a listed replica is not dropped, so nothing was there
    grind
  · grind [filled.kept]

end Relisted
end RaftCluster
end MatrixRaft
