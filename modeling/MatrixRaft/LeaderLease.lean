/-
# LeaderLease — a leader's lease over the confirmations it collects

The lease ends when a majority of the voting peers may have stopped honouring it.  The end
is computed from the confirmations at a renewal, and a renewal is only attempted once the
cached end has passed.
-/
import MatrixRaft.Types
import MatrixRaft.Theory.Pointwise
import MatrixRaft.Theory.Statistic

namespace MatrixRaft
open Theory Theory.Statistic List
open Std (TreeMap)

structure LeasePeer where
  nodeId : Nat
  role : ReplicaRole
  deriving DecidableEq

structure PeerLeaseInfo where
  role : ReplicaRole
  maxSendEpochMs : Nat
  leaseEndMs : Option Nat
  deriving DecidableEq

/-- A member that has confirmed nothing. -/
def PeerLeaseInfo.fresh (role : ReplicaRole) : PeerLeaseInfo where
  role := role
  maxSendEpochMs := 0
  leaseEndMs := none

structure LeaderLease where
  (peerId leaseDurationMs currentTerm : Nat)
  peers : TreeMap Nat PeerLeaseInfo
  lastActiveLeaseEndMs : Option Nat
  haveNewConfirm : Bool

inductive LeaseReason where
  | termMismatch | active | renewed | insufficientConfirmations
  deriving DecidableEq

structure LeaderLeaseStatus where
  inLease : Bool
  leaseEndMs : Option Nat
  (quorumSize votingPeerCount : Nat)
  reason : LeaseReason
  deriving DecidableEq

def inlineLeaseEnds : Nat := 16

variable (lease : LeaderLease) (term nowMs : Nat) (peerId leaseDurationMs : Nat)

namespace LeaderLease

def new : LeaderLease where
  peerId := peerId
  leaseDurationMs := leaseDurationMs
  currentTerm := 0
  peers := ∅
  lastActiveLeaseEndMs := none
  haveNewConfirm := false

def reset (newTerm : Nat) (lease : LeaderLease) : LeaderLease :=
  { lease with
    currentTerm := newTerm
    haveNewConfirm := false
    peers := lease.peers.map fun _ info => { info with maxSendEpochMs := 0, leaseEndMs := none } }

def needResetNodeRole (before after : ReplicaRole) : Bool :=
  before ≠ after && (!before.participatesInQuorum || !after.participatesInQuorum) &&
    (before = .learner || after = .learner)

def listed (role : ReplicaRole) : Option PeerLeaseInfo → PeerLeaseInfo
  | none => .fresh role
  | some info => if needResetNodeRole info.role role then .fresh role else { info with role := role }

def updateMember (peers : TreeMap Nat PeerLeaseInfo) (peer : LeasePeer) : TreeMap Nat PeerLeaseInfo :=
  peers.insert peer.nodeId (listed peer.role peers[peer.nodeId]?)

def updateMembers (peers : List LeasePeer) (lease : LeaderLease) : LeaderLease :=
  { lease with
    peers := (peers.foldl updateMember lease.peers).filter fun nodeId _ =>
      peers.any fun peer => peer.nodeId = nodeId }

def confirmed (epochId leaseDurationMs : Nat) (info : PeerLeaseInfo) : PeerLeaseInfo :=
  let newEnd := satAdd epochId leaseDurationMs
  { info with
    maxSendEpochMs := epochId
    leaseEndMs := if info.leaseEndMs.all (newEnd > ·) then some newEnd else info.leaseEndMs }

def onRecvLeaseConfirm (term «from» epochId leaseDurationMs : Nat) (lease : LeaderLease) :
    Bool × LeaderLease :=
  if term ≠ lease.currentTerm ∨ «from» = lease.peerId then (false, lease)
  else match lease.peers[«from»]? with
    | none => (false, lease)
    | some info =>
      if epochId ≤ info.maxSendEpochMs then (false, lease)
      else (true, { lease with
        peers := lease.peers.insert «from» (confirmed epochId leaseDurationMs info)
        haveNewConfirm := true })

/-! ## The end of the lease -/

/-- The members that count for a quorum. -/
def voting : List (Nat × PeerLeaseInfo) :=
  lease.peers.toList.filter fun peer => peer.2.role.participatesInQuorum

def quorum : Nat := lease.voting.length / 2 + 1

variable (nowMs : Nat)

def peerLeaseEndMs (peer : Nat × PeerLeaseInfo) : Nat :=
  if peer.1 = lease.peerId then satAdd nowMs lease.leaseDurationMs else peer.2.leaseEndMs.getD 0

/-- How many voting peers hold out until `candidate`. -/
def live (nowMs candidate : Nat) : Nat :=
  lease.voting.countP fun other => lease.peerLeaseEndMs nowMs other ≥ candidate

/-- One candidate of the counting path. -/
def better (best : Option Nat) (peer : Nat × PeerLeaseInfo) : Option Nat :=
  let candidate := lease.peerLeaseEndMs nowMs peer
  if best.any (· ≥ candidate) then best
  else if lease.live nowMs candidate ≥ lease.quorum then some candidate
  else best

def validLeaseEndMsByCounting : Option Nat :=
  lease.voting.foldl (lease.better nowMs) none

def validLeaseEndMs : Option Nat :=
  let endTimes := lease.voting.map (lease.peerLeaseEndMs nowMs)
  if endTimes.length > inlineLeaseEnds then lease.validLeaseEndMsByCounting nowMs
  -- `select_nth_unstable`: the element a sort would put at this place
  else (endTimes.insertionSort (· ≤ ·))[endTimes.length - lease.quorum]?

/-- A renewal needs news, except of a single member. -/
def renews : Bool := !(lease.peers.size > 1 && !lease.haveNewConfirm)

def renewed : LeaderLease :=
  { lease with
    lastActiveLeaseEndMs := lease.validLeaseEndMs nowMs
    haveNewConfirm := false }

def active : Bool :=
  lease.lastActiveLeaseEndMs.any (nowMs < ·)

def inLease (lease : LeaderLease) : Bool × LeaderLease :=
  if term ≠ lease.currentTerm then (false, lease)
  else if lease.active nowMs then (true, lease)
  else if lease.renews then ((lease.renewed nowMs).active nowMs, lease.renewed nowMs)
  else (false, lease)

def statusWithReason (reason : LeaseReason) : LeaderLeaseStatus where
  inLease := lease.active nowMs
  leaseEndMs := lease.lastActiveLeaseEndMs
  quorumSize := lease.quorum
  votingPeerCount := lease.voting.length
  reason := reason

def statusForMismatchedTerm : LeaderLeaseStatus where
  inLease := false
  leaseEndMs := none
  quorumSize := lease.quorum
  votingPeerCount := lease.voting.length
  reason := .termMismatch

def status (lease : LeaderLease) : LeaderLeaseStatus × LeaderLease :=
  if term ≠ lease.currentTerm then (lease.statusForMismatchedTerm, lease)
  else if lease.active nowMs then (lease.statusWithReason nowMs .active, lease)
  else if lease.renews then
    ((lease.renewed nowMs).statusWithReason nowMs .renewed, lease.renewed nowMs)
  else (lease.statusWithReason nowMs .insufficientConfirmations, lease)

/-! ## A majority holds out -/

variable (lease : LeaderLease)

theorem live_eq (nowMs candidate : Nat) : lease.live nowMs candidate =
    (lease.voting.map (lease.peerLeaseEndMs nowMs)).countP (· ≥ candidate) := by
  rw [live, countP_map]
  rfl

/-- **The counting path** finds the greatest time a majority of the voting peers reaches. -/
theorem validLeaseEndMsByCounting_eq_some_iff (nowMs leaseEnd : Nat) :
    lease.validLeaseEndMsByCounting nowMs = some leaseEnd ↔ IsGreatest (Reached lease.quorum
      (lease.voting.map (lease.peerLeaseEndMs nowMs))) leaseEnd := by
  set ends := lease.voting.map (lease.peerLeaseEndMs nowMs) with ends_eq
  have best : lease.validLeaseEndMsByCounting nowMs = ends.foldl (keepBest fun candidate =>
      decide (lease.quorum ≤ ends.countP fun other => decide (candidate ≤ other))) none := by
    rw [validLeaseEndMsByCounting, ends_eq, foldl_map]
    congr 1
    funext best peer
    simp [better, keepBest, live_eq]
  rw [best]
  exact eq_some_iff_isGreatest (fun _ => counted_isGreatest (Nat.succ_pos _))
    (counted_isSome (Nat.succ_pos _))

/-- **The end that is computed** is that time on either path. -/
theorem validLeaseEndMs_eq_some_iff (nowMs leaseEnd : Nat) :
    lease.validLeaseEndMs nowMs = some leaseEnd ↔ IsGreatest (Reached lease.quorum
      (lease.voting.map (lease.peerLeaseEndMs nowMs))) leaseEnd := by
  unfold validLeaseEndMs
  simp only
  split
  · exact lease.validLeaseEndMsByCounting_eq_some_iff nowMs leaseEnd
  set ends := lease.voting.map (lease.peerLeaseEndMs nowMs)
  have total : ends.length = lease.voting.length := length_map _
  have sorted := length_insertionSort (· ≤ ·) ends
  refine eq_some_iff_isGreatest (fun value valid => ?_) (by grind [quorum])
  have present : ends.length - lease.quorum < ends.length := by grind
  have small : 0 < lease.quorum ∧ lease.quorum ≤ ends.length := by
    rw [quorum, total] at *
    omega
  exact sorted_place_isGreatest small.1 small.2 valid

/-- **At a renewal a majority of the voting peers holds out** until the end that is computed. -/
theorem validLeaseEndMs_live {lease : LeaderLease} {nowMs leaseEnd : Nat}
    (valid : lease.validLeaseEndMs nowMs = some leaseEnd) :
    lease.quorum ≤ lease.live nowMs leaseEnd := by
  rw [live_eq]
  exact ((lease.validLeaseEndMs_eq_some_iff nowMs leaseEnd).mp valid).1

/-- A query attempts a renewal: the cached end has passed, and there is news. -/
def renewing (lease : LeaderLease) (term nowMs : Nat) : Bool :=
  decide (term = lease.currentTerm) && !lease.active nowMs && lease.renews

theorem inLease_state : (lease.inLease term nowMs).2 =
    if lease.renewing term nowMs then lease.renewed nowMs else lease := by
  unfold inLease renewing
  grind

theorem status_state : (lease.status term nowMs).2 =
    if lease.renewing term nowMs then lease.renewed nowMs else lease := by
  unfold status renewing
  grind

theorem active_of_inLease {lease : LeaderLease} {term nowMs : Nat}
    (answer : (lease.inLease term nowMs).1 = true) :
    term = lease.currentTerm ∧ (lease.inLease term nowMs).2.active nowMs = true := by
  unfold inLease at answer ⊢
  grind

def votes (nodeId : Nat) : Bool :=
  lease.peers[nodeId]?.any fun info => info.role.participatesInQuorum

end LeaderLease

/-! ## What stands behind an answer -/

inductive LeaseCall where
  | reset (newTerm : Nat)
  | updateMembers (peers : List LeasePeer)
  | onRecvLeaseConfirm (term «from» epochId leaseDurationMs : Nat)
  | inLease (term nowMs : Nat)
  | status (term nowMs : Nat)
  deriving DecidableEq

namespace LeaseCall

def isReset : LeaseCall → Bool
  | reset _ => true
  | _ => false

def renews : LeaseCall → Bool
  | inLease term nowMs | status term nowMs => lease.renewing term nowMs
  | _ => false

def run : LeaseCall → LeaderLease
  | reset newTerm => lease.reset newTerm
  | updateMembers peers => lease.updateMembers peers
  | onRecvLeaseConfirm term «from» epochId leaseDurationMs =>
    (lease.onRecvLeaseConfirm term «from» epochId leaseDurationMs).2
  | inLease term nowMs => (lease.inLease term nowMs).2
  | status term nowMs => (lease.status term nowMs).2

variable {lease : LeaderLease} {call : LeaseCall}

theorem run_of_renews (renewal : call.renews lease = true) : ∃ nowMs, call.run lease =
    lease.renewed nowMs := by
  cases call with
  | inLease term nowMs =>
    exact ⟨nowMs, (lease.inLease_state term nowMs).trans (if_pos renewal)⟩
  | status term nowMs =>
    exact ⟨nowMs, (lease.status_state term nowMs).trans (if_pos renewal)⟩
  | _ => cases renewal

theorem lastActive_run (kept : call.renews lease = false) : (call.run lease).lastActiveLeaseEndMs =
    lease.lastActiveLeaseEndMs := by
  cases call with
  | inLease => rw [run, lease.inLease_state, if_neg (by simpa [renews] using kept)]
  | status term nowMs =>
    rw [run, lease.status_state, if_neg (by simpa [renews] using kept)]
  | onRecvLeaseConfirm term «from» epochId leaseDurationMs =>
    simp only [run, LeaderLease.onRecvLeaseConfirm]
    grind
  | _ => rfl

theorem currentTerm_run (kept : call.isReset = false) : (call.run lease).currentTerm =
    lease.currentTerm := by
  cases call with
  | inLease =>
    rw [run, lease.inLease_state]
    split <;> rfl
  | status =>
    rw [run, lease.status_state]
    split <;> rfl
  | onRecvLeaseConfirm term «from» epochId leaseDurationMs =>
    simp only [run, LeaderLease.onRecvLeaseConfirm]
    grind
  | reset => cases kept
  | updateMembers => rfl

theorem peers_run_query : ((inLease term nowMs).run lease).peers = lease.peers ∧
    ((status term nowMs).run lease).peers = lease.peers := by
  rw [run, run, lease.inLease_state, lease.status_state]
  split <;> exact ⟨rfl, rfl⟩

end LeaseCall

/-- A lease beside the confirmations that stand: those accepted since the last reset while
the node has been a voting member, as send epoch and duration. -/
structure Observed where
  lease : LeaderLease
  standing : Nat → List (Nat × Nat)
  /-- A query renewed the lease since the last reset. -/
  renewed : Bool

variable (seen : Observed)

namespace Observed

def start : Observed where
  lease := .new peerId leaseDurationMs
  standing := fun _ => []
  renewed := false

def standingAfter : LeaseCall → Nat → List (Nat × Nat)
  | .reset _ => fun _ => []
  | .updateMembers peers => fun nodeId =>
    if seen.lease.votes nodeId && (seen.lease.updateMembers peers).votes nodeId
    then seen.standing nodeId else []
  | .onRecvLeaseConfirm term «from» epochId leaseDurationMs => fun nodeId =>
    if (seen.lease.onRecvLeaseConfirm term «from» epochId leaseDurationMs).1 && nodeId = «from»
    then (epochId, leaseDurationMs) :: seen.standing nodeId else seen.standing nodeId
  | .inLease _ _ | .status _ _ => seen.standing

def observe (call : LeaseCall) : Observed where
  lease := call.run seen.lease
  standing := seen.standingAfter call
  renewed := !call.isReset && (seen.renewed || call.renews seen.lease)

/-- A majority of the voting members, the leader among them, has confirmations standing that
reach past `nowMs`. -/
def Backed (nowMs : Nat) : Prop :=
  seen.lease.voting.length < 2 * seen.lease.voting.countP fun peer =>
    peer.1 = seen.lease.peerId ∨ (seen.standing peer.1).any fun held => held.1 + held.2 > nowMs

instance (nowMs : Nat) : Decidable (seen.Backed nowMs) :=
  inferInstanceAs (Decidable (_ < _))

end Observed

def observed (calls : List LeaseCall) : Observed :=
  calls.foldl Observed.observe (.start peerId leaseDurationMs)

variable (peerId leaseDurationMs : Nat)

theorem observed_append (calls : List LeaseCall) (call : LeaseCall) :
    observed peerId leaseDurationMs (calls ++ [call]) =
    (observed peerId leaseDurationMs calls).observe call := by simp [observed]

/-! ### The confirmations that stand -/

def Observed.Stands : Prop :=
  ∀ nodeId info, seen.lease.peers[nodeId]? = some info → info.role.participatesInQuorum = true →
    ∀ leaseEnd ∈ info.leaseEndMs, ∃ held ∈ seen.standing nodeId, leaseEnd ≤ held.1 + held.2

namespace LeaderLease

def Inherits (before after : TreeMap Nat PeerLeaseInfo) : Prop :=
  ∀ (nodeId : Nat) (info : PeerLeaseInfo), after[nodeId]? = some info →
    info.role.participatesInQuorum = true →
    ∀ leaseEnd ∈ info.leaseEndMs, ∃ earlier : PeerLeaseInfo, before[nodeId]? = some earlier ∧
      earlier.role.participatesInQuorum = true ∧ leaseEnd ∈ earlier.leaseEndMs

theorem inherits_updateMember (peers : TreeMap Nat PeerLeaseInfo) (peer : LeasePeer) :
    Inherits peers (updateMember peers peer) := by
  intro nodeId info found voting leaseEnd held
  rw [updateMember, TreeMap.getElem?_insert] at found
  split at found
  · rename_i same
    obtain rfl : peer.nodeId = nodeId := by simpa using same
    cases found
    rcases earlier : peers[peer.nodeId]? with _ | old
    · rw [earlier] at held
      cases held
    rw [earlier, listed] at held voting
    -- a learner that is promoted starts over, so the lease end is a voting member's
    split at held
    · cases held
    rename_i kept
    refine ⟨old, rfl, ?_, held⟩
    revert kept voting
    cases old.role <;> cases peer.role <;>
      simp [needResetNodeRole, ReplicaRole.participatesInQuorum]
  · exact ⟨info, found, voting, held⟩

theorem inherits_updateMembers (peers : List LeasePeer) :
    Inherits lease.peers (lease.updateMembers peers).peers := by
  have folded : ∀ (peers : List LeasePeer) (start : TreeMap Nat PeerLeaseInfo),
      Inherits start (peers.foldl updateMember start) := by
    intro peers
    induction peers with
    | nil => exact fun start nodeId info found voting leaseEnd held => ⟨info, found, voting, held⟩
    | cons peer peers ih =>
      intro start nodeId info found voting leaseEnd held
      obtain ⟨mid, foundMid, votingMid, heldMid⟩ := ih _ nodeId info found voting leaseEnd held
      exact inherits_updateMember start peer nodeId mid foundMid votingMid leaseEnd heldMid
  intro nodeId info found voting leaseEnd held
  simp only [updateMembers, TreeMap.getElem?_filter', Option.filter_eq_some_iff] at found
  exact folded peers lease.peers nodeId info found.1 voting leaseEnd held

theorem onRecvLeaseConfirm_cases (term «from» epochId leaseDurationMs : Nat) :
    lease.onRecvLeaseConfirm term «from» epochId leaseDurationMs = (false, lease) ∨
      ∃ info, lease.peers[«from»]? = some info ∧
        lease.onRecvLeaseConfirm term «from» epochId leaseDurationMs = (true, { lease with
          peers := lease.peers.insert «from» (confirmed epochId leaseDurationMs info)
          haveNewConfirm := true }) := by
  unfold onRecvLeaseConfirm
  grind

theorem mem_leaseEndMs_confirmed {epochId leaseDurationMs leaseEnd : Nat} {info : PeerLeaseInfo}
    (held : leaseEnd ∈ (confirmed epochId leaseDurationMs info).leaseEndMs) :
    leaseEnd ∈ info.leaseEndMs ∨ leaseEnd ≤ epochId + leaseDurationMs := by
  simp only [confirmed] at held
  split at held
  · cases held
    exact .inr (min_le_left _ _)
  · exact .inl held

end LeaderLease

namespace Observed
variable {seen : Observed}

theorem Stands.updateMembers (stands : seen.Stands) (peers : List LeasePeer) :
    (seen.observe (.updateMembers peers)).Stands := by
  intro nodeId info found voting leaseEnd held
  obtain ⟨earlier, before, votingBefore, heldBefore⟩ :=
    LeaderLease.inherits_updateMembers seen.lease peers nodeId info found voting leaseEnd held
  have stays : seen.lease.votes nodeId && (seen.lease.updateMembers peers).votes nodeId := by
    simp only [LeaderLease.votes, before, Option.any_some, votingBefore, Bool.true_and]
    rw [show (seen.lease.updateMembers peers).peers[nodeId]? = some info from found]
    exact voting
  simp only [observe, standingAfter, if_pos stays]
  exact stands nodeId earlier before votingBefore leaseEnd heldBefore

theorem Stands.confirm (stands : seen.Stands) (term «from» epochId leaseDurationMs : Nat) :
    (seen.observe (.onRecvLeaseConfirm term «from» epochId leaseDurationMs)).Stands := by
  intro nodeId info found voting leaseEnd held
  simp only [observe, standingAfter, LeaseCall.run] at found ⊢
  rcases seen.lease.onRecvLeaseConfirm_cases term «from» epochId leaseDurationMs with
    refused | ⟨old, before, taken⟩
  · rw [refused] at found ⊢
    simpa using stands nodeId info found voting leaseEnd held
  rw [taken] at found ⊢
  rw [TreeMap.getElem?_insert] at found
  split at found
  · rename_i same
    obtain rfl : «from» = nodeId := by simpa using same
    cases found
    simp only [Bool.true_and, decide_true, if_true]
    rcases LeaderLease.mem_leaseEndMs_confirmed held with kept | fresh
    · obtain ⟨pair, member, reach⟩ := stands «from» old before voting leaseEnd kept
      exact ⟨pair, mem_cons_of_mem _ member, reach⟩
    · exact ⟨_, mem_cons_self, fresh⟩
  · rename_i other
    have different : nodeId ≠ «from» := fun same => other (by simp [same])
    simpa [different] using stands nodeId info found voting leaseEnd held

theorem Stands.observe (stands : seen.Stands) (call : LeaseCall) : (seen.observe call).Stands := by
  cases call with
  | reset =>
    intro nodeId info found voting leaseEnd held
    grind [Observed.observe, LeaseCall.run, LeaderLease.reset]
  | updateMembers peers => exact stands.updateMembers peers
  | onRecvLeaseConfirm term «from» epochId leaseDurationMs => grind [stands.confirm]
  | inLease term nowMs =>
    intro nodeId info found
    exact stands nodeId info ((LeaseCall.peers_run_query term nowMs).1 ▸ found)
  | status term nowMs =>
    intro nodeId info found
    exact stands nodeId info ((LeaseCall.peers_run_query term nowMs).2 ▸ found)

theorem Stands.backed (stands : seen.Stands) {renewedAt leaseEnd nowMs : Nat}
    (valid : seen.lease.validLeaseEndMs renewedAt = some leaseEnd) (early : nowMs < leaseEnd) :
    seen.Backed nowMs := by
  have enough := LeaderLease.validLeaseEndMs_live valid
  have counted : seen.lease.live renewedAt leaseEnd ≤ seen.lease.voting.countP fun peer =>
      peer.1 = seen.lease.peerId ∨ (seen.standing peer.1).any fun held => held.1 + held.2 > nowMs := by
    refine countP_mono_left fun peer member holds => ?_
    obtain ⟨listed, voting⟩ := mem_filter.mp member
    have found := TreeMap.mem_toList_iff_getElem?_eq_some.mp listed
    have holds := of_decide_eq_true holds
    simp only [LeaderLease.peerLeaseEndMs] at holds
    refine decide_eq_true ?_
    by_cases leader : peer.1 = seen.lease.peerId
    · exact .inl leader
    rcases ends : peer.2.leaseEndMs with _ | peerEnd
    · grind
    obtain ⟨held, standing, reach⟩ := stands peer.1 peer.2 found voting peerEnd ends
    grind
  rw [LeaderLease.quorum] at enough
  unfold Backed
  omega

end Observed

theorem stands_observed (calls : List LeaseCall) :
    (observed peerId leaseDurationMs calls).Stands := by
  induction calls using reverseRecOn with
  | nil =>
    intro nodeId info found
    simp [observed, Observed.start, LeaderLease.new] at found
  | append_singleton calls call ih =>
    rw [observed_append]
    exact ih.observe call

/-! ### The renewal behind the cached end -/

theorem renewal_of_lastActive (calls : List LeaseCall) {leaseEnd : Nat} (cached : (observed peerId
    leaseDurationMs calls).lease.lastActiveLeaseEndMs = some leaseEnd) : ∃ before call after, calls
    = before ++ call :: after ∧ call.renews (observed peerId leaseDurationMs before).lease = true ∧
    ((observed peerId leaseDurationMs calls).renewed = true → (∀ other ∈ after, other.isReset =
    false) ∧ (observed peerId leaseDurationMs before).lease.currentTerm = (observed peerId
    leaseDurationMs calls).lease.currentTerm) ∧ ∀ nowMs < leaseEnd, (observed peerId leaseDurationMs
    before).Backed nowMs := by
  induction calls using reverseRecOn with
  | nil => cases cached
  | append_singleton calls call ih =>
    rw [observed_append] at cached ⊢
    set seen := observed peerId leaseDurationMs calls with seen_eq
    rcases renewal : call.renews seen.lease with _ | _
    · -- the end is the one cached before: the renewal behind it stays the same
      rw [Observed.observe, LeaseCall.lastActive_run renewal] at cached
      obtain ⟨before, query, after, rfl, renews, since, backed⟩ := ih cached
      refine ⟨before, query, after ++ [call], by simp, renews, fun renewed => ?_, backed⟩
      simp only [Observed.observe, renewal, Bool.or_false, Bool.and_eq_true,
        Bool.not_eq_true'] at renewed ⊢
      obtain ⟨unreset, sameTerm⟩ := since renewed.2
      rw [LeaseCall.currentTerm_run renewed.1, ← sameTerm]
      refine ⟨fun other member => ?_, rfl⟩
      rcases mem_append.mp member with old | new
      · exact unreset other old
      · grind
    · -- the call renews the lease
      obtain ⟨nowMs, ran⟩ := LeaseCall.run_of_renews renewal
      rw [Observed.observe, ran] at cached
      refine ⟨calls, call, [], rfl, renewal, fun _ => ⟨by simp, ?_⟩, fun nowMs early => ?_⟩
      · rw [Observed.observe, ran, seen_eq]
        rfl
      · exact (stands_observed peerId leaseDurationMs calls).backed cached early

/-- **An answer rests on a majority of the renewal it comes from.**  That renewal was made in the term
asked for, with no reset since, and at that moment a majority of the voting members had
confirmations standing that reach past the time asked for. -/
theorem in_lease_backed (peerId leaseDurationMs : Nat) (calls : List LeaseCall) (term nowMs : Nat)
    (answer : ((observed peerId leaseDurationMs calls).lease.inLease term nowMs).1 = true)
    (since : (observed peerId leaseDurationMs (calls ++ [.inLease term nowMs])).renewed = true) :
    ∃ before call after, calls ++ [.inLease term nowMs] = before ++ call :: after ∧
      call.renews (observed peerId leaseDurationMs before).lease = true ∧
      (∀ other ∈ after, other.isReset = false) ∧
      (observed peerId leaseDurationMs before).lease.currentTerm = term ∧
      (observed peerId leaseDurationMs before).Backed nowMs := by
  obtain ⟨current, active⟩ := LeaderLease.active_of_inLease answer
  obtain ⟨leaseEnd, cached, early⟩ := (Option.any_eq_true _ _).mp active
  have after : (observed peerId leaseDurationMs (calls ++ [.inLease term nowMs])).lease
      = ((observed peerId leaseDurationMs calls).lease.inLease term nowMs).2 := by
    rw [observed_append]
    rfl
  rw [← after] at cached
  obtain ⟨before, call, later, split, renews, rest, backed⟩ := renewal_of_lastActive _ _ _ cached
  obtain ⟨unreset, sameTerm⟩ := rest since
  refine ⟨before, call, later, split, renews, unreset, ?_, backed nowMs (of_decide_eq_true early)⟩
  rw [sameTerm, observed_append, Observed.observe, LeaseCall.currentTerm_run rfl, current]

/-- Five voters, of which 2 and 3 confirm; then 2 leaves. -/
def departing : List LeaseCall :=
  [.updateMembers ([1, 2, 3, 4, 5].map (⟨·, .voter⟩)), .reset 1,
    .onRecvLeaseConfirm 1 2 11 100, .onRecvLeaseConfirm 1 3 11 100, .inLease 1 50,
    .updateMembers ([1, 3, 4, 5].map (⟨·, .voter⟩))]

theorem in_lease_backed_departing :
    ∃ before call after, departing ++ [.inLease 1 60] = before ++ call :: after ∧
      call.renews (observed 1 100 before).lease = true ∧ (∀ other ∈ after, other.isReset = false) ∧
      (observed 1 100 before).lease.currentTerm = 1 ∧ (observed 1 100 before).Backed 60 :=
  in_lease_backed 1 100 departing 1 60 (by decide +kernel) (by decide +kernel)

/-- Two of four voters are not a majority, and the query still answers `true`. -/
theorem in_lease_outlives_members : ((observed 1 100 departing).lease.inLease 1 60).1 = true ∧
      ¬ (observed 1 100 departing).Backed 60 := by
  decide +kernel

end MatrixRaft
