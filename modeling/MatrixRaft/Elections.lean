/-
# Elections — processes that elect a leader over a network

Every process holds a cluster with the whole membership and drives its own replica, over a
network that may delay, reorder, duplicate or lose messages.  Two leaders of one term would
need two majorities of the electors, and so one elector that backed both.
-/
import MatrixRaft.Voting

namespace MatrixRaft
open Theory RaftCluster List

/-! ## Processes and packets -/

structure Answer where
  (voter candidate : Nat)
  preVote : Bool
  response : VoteResponse
  deriving DecidableEq

/-- The cluster each process holds, and every packet ever sent.  A packet is never taken
off the network, so it may arrive late, twice or not at all. -/
structure World where
  clusters : Nat → RaftCluster
  requests : List (Nat × VoteRequest)
  answers : List Answer

/-- A process sends a request, a process answers one, or a process hears an answer. -/
inductive Event where
  | ask (target : Nat) (request : VoteRequest)
  | vote (target : Nat) (request : VoteRequest)
  | hear (answer : Answer)

variable (w : World)

namespace World

def setCluster (own : Nat) (s : RaftCluster) : World :=
  { w with clusters := Function.update w.clusters own s }

def answer (target : Nat) (request : VoteRequest) : World :=
  let handled := voteTo target request (w.clusters target)
  { w.setCluster target handled.2 with
    answers := match handled.1 with
      | .ok response => ⟨target, request.candidateId, request.preVote, response⟩ :: w.answers
      | .error _ => w.answers }

def hear (answer : Answer) : World :=
  w.setCluster answer.candidate
    (handleVoteResponseFrom answer.candidate answer.voter answer.response answer.preVote
      (w.clusters answer.candidate)).2

def step : Event → World
  | .ask target request => { w with requests := (target, request) :: w.requests }
  | .vote target request => if (target, request) ∈ w.requests then w.answer target request else w
  | .hear answer => if answer ∈ w.answers then w.hear answer else w

def run (events : List Event) : World := events.foldl step w

def Timely : Event → Prop
  | .hear answer =>
    (answer.preVote = true → (w.clusters answer.candidate).currentTerm < u64Max) ∧
    (answer.preVote = false → answer.response.voteGranted = true →
      answer.response.term ≤ (w.clusters answer.candidate).currentTerm →
      answer.response.term = (w.clusters answer.candidate).currentTerm ∧
        ∀ backed ∈ (w.clusters answer.candidate).voteOf answer.candidate,
          backed = answer.candidate)
  | _ => True

instance : (event : Event) → Decidable (w.Timely event)
  | .ask _ _ => inferInstanceAs (Decidable True)
  | .vote _ _ => inferInstanceAs (Decidable True)
  | .hear _ => inferInstanceAs (Decidable ((_ → _) ∧ (_ → _ → _ → _ ∧ ∀ backed ∈ _, _)))

def AllTimely : World → List Event → Prop
  | _, [] => True
  | w, event :: rest => w.Timely event ∧ AllTimely (w.step event) rest

instance decidableAllTimely : (w : World) → (events : List Event) → Decidable (w.AllTimely events)
  | _, [] => inferInstanceAs (Decidable True)
  | w, event :: rest =>
    have := decidableAllTimely (w.step event) rest
    inferInstanceAs (Decidable (_ ∧ _))

end World

/-! ## What has happened -/

/-- Who backed whom in which term, and who led it. -/
structure History where
  backs : Nat → Nat → Nat → Prop
  leads : Nat → Nat → Prop

namespace History

def extend (history : History) (voter candidate term : Nat) (backs leads : Prop) : History where
  backs := fun v c t => history.backs v c t ∨ (backs ∧ v = voter ∧ c = candidate ∧ t = term)
  leads := fun t l => history.leads t l ∨ (leads ∧ t = term ∧ l = candidate)

/-- Nothing that happened is forgotten. -/
structure Le (first second : History) : Prop where
  backs : ∀ voter candidate term, first.backs voter candidate term →
    second.backs voter candidate term
  leads : ∀ term leader, first.leads term leader → second.leads term leader

theorem Le.refl (history : History) : Le history history := ⟨fun _ _ _ held => held, fun _ _ held => held⟩

theorem Le.trans {first second third : History} (one : Le first second) (two : Le second third) :
    Le first third :=
  ⟨fun v c t held => two.backs v c t (one.backs v c t held),
    fun t l held => two.leads t l (one.leads t l held)⟩

theorem le_extend (history : History) (voter candidate term : Nat) (backs leads : Prop) :
    Le history (history.extend voter candidate term backs leads) :=
  ⟨fun _ _ _ => .inl, fun _ _ => .inl⟩

end History

/-- What the run has established: every grant sent and every own vote counted backs one
candidate, and every leader was backed by a majority of the electors. -/
structure Elects (home : RaftCluster) (history : History) (w : World) : Prop where
  atHome : ∀ own, Home home own (w.clusters own)
  recent : ∀ own, (w.clusters own).electionResponsesTerm ≤ (w.clusters own).currentTerm
  short : ∀ own, Short home own (w.clusters own)
  sent : ∀ answer ∈ w.answers, answer.preVote = false → answer.response.voteGranted = true →
    history.backs answer.voter answer.candidate answer.response.term
  elector : ∀ voter candidate term, history.backs voter candidate term →
    voter ∈ home.electors false
  reached : ∀ voter candidate term, history.backs voter candidate term →
    term ≤ (w.clusters voter).currentTerm ∧
      (term = (w.clusters voter).currentTerm → (w.clusters voter).voteOf voter = some candidate)
  once : ∀ voter one two term, history.backs voter one term → history.backs voter two term →
    one = two
  counted : ∀ own, (w.clusters own).electionResponsesTerm = (w.clusters own).currentTerm →
    ∀ nodeId : Nat, (w.clusters own).voteResponses[nodeId]? = some true →
      nodeId = own ∨ history.backs nodeId own (w.clusters own).currentTerm
  won : ∀ term leader, history.leads term leader → ∃ backers ⊆ home.electors false,
    (home.electors false).card / 2 + 1 ≤ backers.card ∧
      ∀ voter ∈ backers, history.backs voter leader term
  named : ∀ own leader, (w.clusters own).leaderId = some leader →
    history.leads (w.clusters own).currentTerm leader

namespace Elects
variable {home : RaftCluster} {history : History} {w : World}

section
variable (elects : Elects home history w)

include elects

/-- **One leader a term.** Two majorities share an elector, and it backed one candidate. -/
theorem leader_unique {term one two : Nat}
    (first : history.leads term one) (second : history.leads term two) : one = two := by
  obtain ⟨backers, inside, many, backed⟩ := elects.won term one first
  obtain ⟨backers', inside', many', backed'⟩ := elects.won term two second
  obtain ⟨voter, shared⟩ := majorities_meet inside inside' many many'
  obtain ⟨inOne, inTwo⟩ := Finset.mem_inter.mp shared
  exact elects.once voter one two term (backed voter inOne) (backed' voter inTwo)

structure Moves (home : RaftCluster) (history : History) (own candidate : Nat) (backs leads : Prop)
    (s s' : RaftCluster) : Prop where
  atHome : Home home own s'
  recent : s'.electionResponsesTerm ≤ s'.currentTerm
  short : Short home own s'
  term : s.currentTerm ≤ s'.currentTerm
  vote : s'.currentTerm = s.currentTerm → ∀ backed, s.voteOf own = some backed →
    s'.voteOf own = some backed
  cast : backs → s'.voteOf own = some candidate ∧ own ∈ home.electors false
  counted : s'.electionResponsesTerm = s'.currentTerm →
    ∀ nodeId : Nat, s'.voteResponses[nodeId]? = some true →
      nodeId = own ∨ history.backs nodeId own s'.currentTerm
  won : leads → ∃ backers ⊆ home.electors false, (home.electors false).card / 2 + 1 ≤ backers.card ∧
    ∀ voter ∈ backers,
      (history.extend own candidate s'.currentTerm backs leads).backs voter candidate s'.currentTerm
  named : ∀ leader, s'.leaderId = some leader →
    (history.extend own candidate s'.currentTerm backs leads).leads s'.currentTerm leader

theorem moved {own candidate : Nat} {backs leads : Prop} {s' : RaftCluster} {answers : List Answer}
    (moves : Moves home history own candidate backs leads (w.clusters own) s')
    (sent : ∀ answer ∈ answers, answer.preVote = false → answer.response.voteGranted = true →
      (history.extend own candidate s'.currentTerm backs leads).backs answer.voter
        answer.candidate answer.response.term) :
    Elects home (history.extend own candidate s'.currentTerm backs leads)
      { w.setCluster own s' with answers := answers } := by
  set after : World := { w.setCluster own s' with answers := answers } with after_eq
  have self : after.clusters own = s' := by
    simp [after_eq, World.setCluster]
  have others : ∀ other, other ≠ own → after.clusters other = w.clusters other := by
    intro other apart
    simp [after_eq, World.setCluster, Function.update_of_ne apart]
  have term := moves.term
  -- an old backing still agrees with the voter's state
  have reached : ∀ voter backed t, history.backs voter backed t →
      t ≤ (after.clusters voter).currentTerm ∧
      (t = (after.clusters voter).currentTerm →
        (after.clusters voter).voteOf voter = some backed) := by
    intro voter backed t held
    obtain ⟨low, agrees⟩ := elects.reached voter backed t held
    by_cases isOwn : voter = own
    · subst isOwn
      rw [self]
      refine ⟨low.trans term, fun now => ?_⟩
      exact moves.vote (by omega) backed (agrees (by omega))
    · grind
  refine ⟨fun other => ?_, fun other => ?_, fun other => ?_, sent, ?_, ?_, ?_, fun other => ?_, ?_,
    fun other => ?_⟩
  · grind [moves.atHome, elects.atHome]
  · by_cases isOwn : other = own
    · grind [moves.recent]
    · rw [others other isOwn]
      exact elects.recent other
  · grind [moves.short, elects.short]
  · rintro voter backed t (held | ⟨given, rfl, -, -⟩)
    · exact elects.elector voter backed t held
    · exact (moves.cast given).2
  · rintro voter backed t (held | ⟨given, rfl, rfl, rfl⟩)
    · exact reached voter backed t held
    · grind [moves.cast]
  · -- a new backing is the vote the process now holds
    have agree : ∀ backed, history.backs own backed s'.currentTerm → backs → backed = candidate := by
      intro backed held given
      grind [moves.cast]
    rintro voter one two t (first | ⟨given, isOwn, isOne, now⟩) (second | ⟨given', isOwn', isTwo, now'⟩)
    · grind [elects.once]
    · grind
    · grind
    · exact isOne.trans isTwo.symm
  · by_cases isOwn : other = own
    · subst isOwn
      rw [self]
      intro same nodeId voted
      exact (moves.counted same nodeId voted).imp_right .inl
    · rw [others other isOwn]
      intro same nodeId voted
      exact (elects.counted other same nodeId voted).imp_right .inl
  · rintro t leader (held | ⟨given, rfl, rfl⟩)
    · obtain ⟨backers, inside, many, backed⟩ := elects.won t leader held
      exact ⟨backers, inside, many, fun voter member => .inl (backed voter member)⟩
    · exact moves.won given
  · by_cases isOwn : other = own
    · grind [moves.named]
    · rw [others other isOwn]
      exact fun leader names => .inl (elects.named other leader names)

theorem answer (founded : home.Founded) (target : Nat) (request : VoteRequest) :
    ∃ later, History.Le history later ∧ Elects home later (w.answer target request) := by
  have casts := voteTo_casts (elects.atHome target) request
  unfold World.answer
  generalize voteTo target request (w.clusters target) = handled at casts ⊢
  obtain ⟨result, s'⟩ := handled
  replace casts : Casts home target request result (w.clusters target) s' := casts
  have term := casts.term
  have recent := elects.recent target
  -- the process backs the candidate if it grants for good
  let grants := ∃ response, result = .ok response ∧ response.voteGranted = true ∧
    request.preVote = false
  have moves : Moves home history target request.candidateId grants False (w.clusters target) s' := by
    have tallied := casts.counted.2
    refine ⟨casts.atHome, by omega,
      casts.short founded (elects.atHome target) recent (elects.short target), term, casts.vote, ?_, fun same nodeId voted => ?_,
      fun no => no.elim, fun leader names => ?_⟩
    · rintro ⟨response, answered, granted, binding⟩
      obtain ⟨-, vote, node, held, takes⟩ := casts.granted response answered granted binding
      exact ⟨vote, casts.atHome.own_elector founded.keyed held takes⟩
    · -- counts of an earlier term do not matter, and the term has not moved otherwise
      have unmoved : s'.currentTerm = (w.clusters target).currentTerm := by omega
      rw [casts.counted.1] at voted
      rw [unmoved]
      exact elects.counted target (by omega) nodeId voted
    · rcases casts.leader with gone | ⟨same, unmoved⟩
      · grind
      · rw [same] at names
        rw [unmoved]
        exact .inl (elects.named target leader names)
  refine ⟨_, history.le_extend target request.candidateId s'.currentTerm grants False,
    elects.moved moves fun answer member binding granted => ?_⟩
  have old : answer ∈ w.answers → (history.extend target request.candidateId s'.currentTerm grants
      False).backs answer.voter answer.candidate answer.response.term :=
    fun before => .inl (elects.sent answer before binding granted)
  split at member
  · rename_i response answered
    rcases mem_cons.mp member with rfl | before
    · obtain ⟨now, -⟩ := casts.granted response answered granted binding
      exact .inr ⟨⟨response, answered, granted, binding⟩, rfl, rfl, now⟩
    · exact old before
  · exact old member

theorem hear (founded : home.Founded) {answer : Answer}
    (member : answer ∈ w.answers) (timely : w.Timely (.hear answer)) :
    ∃ later, History.Le history later ∧ Elects home later (w.hear answer) := by
  obtain ⟨room, current⟩ := timely
  have hears := handleVoteResponseFrom_hears founded (elects.atHome answer.candidate)
    (elects.short answer.candidate) answer.voter answer.response room
  unfold World.hear
  generalize (handleVoteResponseFrom answer.candidate answer.voter answer.response answer.preVote
    (w.clusters answer.candidate)).2 = s' at hears ⊢
  have recent := elects.recent answer.candidate
  -- a countable vote is the process's own or a backing in its term
  have backed : ∀ nodeId, Countable answer.candidate answer.voter
      (answer.response.voteGranted = true ∧ answer.preVote = false ∧
        answer.response.term ≤ (w.clusters answer.candidate).currentTerm)
      (w.clusters answer.candidate) nodeId → nodeId = answer.candidate ∨
        history.backs nodeId answer.candidate (w.clusters answer.candidate).currentTerm := by
    rintro nodeId (isOwn | ⟨same, voted⟩ | ⟨rfl, granted, binding, reached⟩)
    · exact .inl isOwn
    · exact elects.counted answer.candidate same nodeId voted
    · have sent := elects.sent answer member binding granted
      grind
  have still : ∀ {backs leads : Prop} {now : Nat}, ∀ other ∈ w.answers, other.preVote = false →
      other.response.voteGranted = true →
      (history.extend answer.candidate answer.candidate now backs leads).backs other.voter
        other.candidate other.response.term :=
    fun other before binding granted => .inl (elects.sent other before binding granted)
  cases hears with
  | counts atHome term vote leader recent' counted short =>
    refine ⟨_, history.le_extend answer.candidate answer.candidate s'.currentTerm False False,
      elects.moved ⟨atHome, by omega, short, term.ge, fun _ backed voted => vote.trans voted,
        fun no => no.elim, fun same nodeId voted => ?_, fun no => no.elim, fun leader' names => ?_⟩
        still⟩
    · grind
    rcases leader with gone | same
    · grind
    rw [same] at names
    rw [term]
    exact .inl (elects.named answer.candidate leader' names)
  | rises atHome term leader recent' counted =>
    refine ⟨_, history.le_extend answer.candidate answer.candidate s'.currentTerm False False,
      elects.moved ⟨atHome, recent'.le, fun _ _ => .inl counted, term.le, fun same => absurd same term.ne',
        fun no => no.elim, fun _ nodeId voted => .inl (counted nodeId voted), fun no => no.elim,
        fun leader' names => ?_⟩ still⟩
    grind
  | leads atHome term leader vote recent' counted fit backers inside many countable granted =>
    obtain ⟨grants, binding, reached⟩ := granted
    have electors := (elects.atHome answer.candidate).electors_subset founded.keyed
    have ours := fit.elector founded.keyed
    -- the backers are electors of the founding membership, and back the new leader
    have behind : ∀ nodeId ∈ backers, (history.extend answer.candidate answer.candidate
        s'.currentTerm True True).backs nodeId answer.candidate s'.currentTerm := by
      intro nodeId member
      rw [term]
      rcases backed nodeId (countable nodeId member) with isOwn | held
      · exact .inr ⟨trivial, isOwn, rfl, rfl⟩
      · exact .inl held
    refine ⟨_, history.le_extend answer.candidate answer.candidate s'.currentTerm True True,
      elects.moved ⟨atHome, recent'.le, fun _ _ => .inl fun nodeId voted => ?_, term.ge,
        fun _ backed' voted => ?_, fun _ => ⟨vote, ours⟩, fun _ nodeId voted => ?_,
        fun _ => ⟨backers, fun nodeId member => ?_, ?_, behind⟩, fun leader' names => ?_⟩ still⟩
    · simp [counted] at voted
    · rw [vote, (current binding grants reached).2 backed' voted]
    · simp [counted] at voted
    · grind [elects.elector]
    · have := Finset.card_le_card electors
      omega
    · rw [leader] at names
      exact .inr ⟨trivial, rfl, (Option.some.inj names).symm⟩

theorem step (founded : home.Founded) {event : Event} (timely : w.Timely event) :
    ∃ later, History.Le history later ∧ Elects home later (w.step event) := by
  cases event with
  | ask =>
    exact ⟨history, .refl history, elects.atHome, elects.recent, elects.short, elects.sent,
      elects.elector, elects.reached, elects.once, elects.counted, elects.won, elects.named⟩
  | vote target request =>
    simp only [World.step]
    split
    · exact elects.answer founded target request
    · exact ⟨history, .refl history, elects⟩
  | hear =>
    simp only [World.step]
    split
    · grind [elects.hear]
    · exact ⟨history, .refl history, elects⟩

end

theorem run (founded : home.Founded) :
    ∀ (events : List Event) (history : History) (w : World), Elects home history w →
      w.AllTimely events → ∃ later, History.Le history later ∧ Elects home later (w.run events)
  | [], history, _, elects, _ => ⟨history, .refl history, elects⟩
  | _ :: rest, _, _, elects, timely => by
    obtain ⟨middle, grows, elects'⟩ := elects.step founded timely.1
    obtain ⟨later, grows', elects''⟩ := run founded rest middle _ elects' timely.2
    exact ⟨later, grows.trans grows', elects''⟩

end Elects

/-! ## Worlds to begin with -/

structure World.Begins (groupId : Nat) (configs : Nat → Config) (peers : List Peer) (begun : Bool)
    (w : World) : Prop where
  clusters : ∀ own, ∃ fresh, new groupId (configs own) peers = .ok fresh ∧
    w.clusters own = if begun then (start fresh).2 else fresh
  requests : w.requests = []
  answers : w.answers = []

section Begins
variable {groupId : Nat} {config : Config} {peers : List Peer} {fresh : RaftCluster}

section
variable (created : new groupId config peers = .ok fresh)

include created

theorem new_founded : fresh.Founded where
  keyed := new_members created fun _ => rfl
  healthy := new_members created fun _ => rfl

theorem firstHealthyVoter_of_new :
    ∃ leaderId, fresh.firstHealthyVoter = some leaderId ∧ fresh.Fit leaderId := by
  have founded := new_founded created
  obtain ⟨nodes, -, rfl, leads⟩ := new_eq created
  obtain ⟨⟨nodeId, node⟩, member, leads⟩ := any_eq_true.mp leads
  have held := Std.TreeMap.mem_toList_iff_getElem?_eq_some.mp member
  have eligible : node ∈ (initial groupId config nodes).members ∧
      (node.replicaRole.canBeLeader && node.healthy) = true :=
    ⟨mem_members.mpr ⟨nodeId, held⟩,
      Bool.and_eq_true_iff.mpr ⟨leads, founded.healthy nodeId node held⟩⟩
  obtain ⟨first, found⟩ : ∃ first, (initial groupId config nodes).members.find?
      (fun node => node.replicaRole.canBeLeader && node.healthy) = some first :=
    Option.isSome_iff_exists.mp (find?_isSome.mpr ⟨node, eligible⟩)
  obtain ⟨key, heldFirst⟩ := mem_members.mp (mem_of_find?_eq_some found)
  refine ⟨first.id, by rw [firstHealthyVoter, found]; rfl, first, ?_, ?_⟩
  · rw [founded.keyed key first heldFirst]
    exact heldFirst
  have accepted := find?_some found
  have leads : first.replicaRole.canBeLeader = true := (Bool.and_eq_true_iff.mp accepted).1
  cases role : first.replicaRole <;> rw [role] at leads <;> first | rfl | cases leads

structure Opened (fresh : RaftCluster) (term : Nat) (leader : Option Nat) (s : RaftCluster) :
    Prop where
  members : EachNode Node.SameMember fresh s
  currentTerm : s.currentTerm = term
  leaderId : s.leaderId = leader
  terms : ∀ (nodeId : Nat) (node : Node), s.nodes[nodeId]? = some node →
    node.hardState.currentTerm = term
  votes : ∀ leaderId ∈ leader, ∀ (nodeId : Nat) (node : Node), s.nodes[nodeId]? = some node →
    node.hardState.votedFor = some leaderId
  recent : s.electionResponsesTerm = 0
  counted : s.voteResponses = ∅
  idle : s.activeLeaderTransfer = none
  counts : s.ignoreWitness = false

theorem new_opened : Opened fresh 0 none fresh := by
  have terms := @new_members groupId config peers fresh created
    (fun _ node => node.hardState.currentTerm = 0) fun _ => rfl
  obtain ⟨nodes, -, rfl, -⟩ := new_eq created
  exact ⟨EachNode.refl .refl _, rfl, rfl, terms, (fun _ no => nomatch no), rfl, rfl, rfl, rfl⟩

omit created in
theorem Opened.keepsVoters {term : Nat} {leader : Option Nat} {s s' : RaftCluster}
    (opened : Opened fresh term leader s) (kept : KeepsVoters s s') :
    Opened fresh term leader s' where
  members := EachNode.trans (fun _ _ _ => .trans) opened.members kept.members
  currentTerm := (KeepsBallots.of_voters kept).currentTerm.trans opened.currentTerm
  leaderId := (KeepsBallots.of_voters kept).leaderId.trans opened.leaderId
  terms := fun nodeId node' held' => by
    obtain ⟨node, held, same⟩ := kept.nodes.back held'
    rw [same.term]
    exact opened.terms nodeId node held
  votes := fun leaderId names nodeId node' held' => by
    obtain ⟨node, held, same⟩ := kept.nodes.back held'
    rw [same.vote]
    exact opened.votes leaderId names nodeId node held
  recent := (congrArg electionResponsesTerm kept.ballots).trans opened.recent
  counted := (congrArg voteResponses kept.ballots).trans opened.counted
  idle := (KeepsBallots.of_voters kept).activeLeaderTransfer.trans opened.idle
  counts := (congrArg ignoreWitness kept.ballots).trans opened.counts

omit created in
theorem campaign_first {s : RaftCluster} {leaderId : Nat} {node : Node} (running : s.running = true)
    (unled : s.leaderId = none) (term : s.currentTerm = 0)
    (held : s.nodes[leaderId]? = some node) (voter : node.replicaRole = .voter)
    (healthy : node.healthy = true) :
    (campaign leaderId true s).2 = (broadcastLeaderNoop (s.takeLeadership leaderId 1)).2 := by
  have next : checkedAdd 0 1 = some 1 := rfl
  simp only [campaign, running, held, voter, healthy, unled, term, next, ReplicaRole.canBeLeader,
    Bool.not_true, Bool.and_false, Bool.false_eq_true, if_false, reduceCtorEq, false_and, if_true,
    Attempt.bind_pure_state]

omit created in
theorem start_first {s : RaftCluster} {leaderId : Nat} (unled : s.leaderId = none)
    (first : s.firstHealthyVoter = some leaderId) :
    start s = campaign leaderId true { s with running := true } := by
  have chosen : ({ s with running := true } : RaftCluster).firstHealthyVoter = some leaderId := first
  grind [start]

theorem start_opened {leaderId : Nat} (first : fresh.firstHealthyVoter = some leaderId)
    (fit : fresh.Fit leaderId) : Opened fresh 1 (some leaderId) (start fresh).2 := by
  obtain ⟨node, held, voter⟩ := fit
  have healthy := (new_founded created).healthy leaderId node held
  obtain ⟨nodes, -, rfl, -⟩ := new_eq created
  rw [start_first rfl first, @campaign_first { initial groupId config nodes with running := true }
    leaderId node rfl rfl rfl held voter healthy]
  have ballots : ∀ (nodeId : Nat) (node : Node), (claimLeadership
      { initial groupId config nodes with running := true } leaderId 1).nodes[nodeId]? = some node →
      node.hardState.currentTerm = 1 ∧ node.hardState.votedFor = some leaderId := by
    intro nodeId node found
    simp only [claimLeadership, adoptElection, mapNodes, Std.TreeMap.getElem?_map] at found
    obtain ⟨before, -, rfl⟩ := Option.map_eq_some_iff.mp found
    exact ⟨rfl, rfl⟩
  have claimed : Opened (initial groupId config nodes) 1 (some leaderId)
      (claimLeadership { initial groupId config nodes with running := true } leaderId 1) :=
    ⟨EachNode.mapNodes fun _ => ⟨rfl, rfl, fun well => well⟩, rfl, rfl,
      fun nodeId node found => (ballots nodeId node found).1,
      fun _ names nodeId node found => (ballots nodeId node found).2.trans names, rfl, rfl, rfl, rfl⟩
  have elected : Opened (initial groupId config nodes) 1 (some leaderId)
      (takeLeadership { initial groupId config nodes with running := true } leaderId 1) :=
    (claimed.keepsVoters (.refreshWitnessCommitQuorumPolicy _)).keepsVoters (.of_nodes_eq rfl rfl)
  exact elected.keepsVoters (.broadcastLeaderNoop _)

end

theorem Opened.atHome {term : Nat} {leader : Option Nat} {home s : RaftCluster}
    (opened : Opened fresh term leader s) (same : fresh.nodes = home.nodes) (own : Nat) :
    Home home own s where
  members := fun nodeId => by
    obtain ⟨kept, absent⟩ := opened.members nodeId
    rw [same] at kept absent
    refine ⟨fun node held => ?_, absent⟩
    obtain ⟨node', held', member⟩ := kept node held
    exact ⟨node', held', member.id, .inl member.role, member.healthy⟩
  term := fun node held => (opened.terms own node held).trans opened.currentTerm.symm
  learner := fun node₀ node held₀ held learner => by
    obtain ⟨before, heldBefore, member⟩ := opened.members.back held
    grind [member.role]
  idle := opened.idle
  counts := opened.counts

theorem Elects.opening {home : RaftCluster} {w : World} {term : Nat} {leader : Option Nat}
    (founded : home.Founded) (fit : ∀ leaderId ∈ leader, home.Fit leaderId)
    (each : ∀ own, ∃ fresh, fresh.nodes = home.nodes ∧ Opened fresh term leader (w.clusters own))
    (silent : w.answers = []) :
    Elects home ⟨fun voter candidate t => voter ∈ home.electors false ∧ leader = some candidate ∧
      t = term, fun t leaderId => t = term ∧ leader = some leaderId⟩ w where
  atHome := fun own => by
    obtain ⟨fresh, same, opened⟩ := each own
    exact opened.atHome same own
  recent := fun own => by
    obtain ⟨fresh, same, opened⟩ := each own
    rw [opened.recent]
    exact Nat.zero_le _
  short := fun own fit ofTerm => .inl fun nodeId voted => by
    obtain ⟨fresh, same, opened⟩ := each own
    simp [opened.counted] at voted
  sent := fun answer member => by grind
  elector := fun _ _ _ backed => backed.1
  reached := by
    rintro voter candidate _ ⟨elector, names, rfl⟩
    obtain ⟨fresh, same, opened⟩ := each voter
    refine ⟨opened.currentTerm.ge, fun _ => ?_⟩
    obtain ⟨node₀, held₀, -⟩ := founded.keyed.mem_idsWhere.mp elector
    rw [← same] at held₀
    obtain ⟨node, held, -⟩ := (opened.members voter).1 node₀ held₀
    exact Option.bind_eq_some_iff.mpr ⟨node, held, opened.votes candidate names voter node held⟩
  once := fun _ _ _ _ first second =>
    Option.some.inj (first.2.1.symm.trans second.2.1)
  counted := fun own ofTerm nodeId voted => by
    obtain ⟨fresh, same, opened⟩ := each own
    simp [opened.counted] at voted
  won := by
    rintro _ leaderId ⟨rfl, names⟩
    refine ⟨home.electors false, subset_rfl, ?_, fun voter member => ⟨member, names, rfl⟩⟩
    have := Finset.card_pos.mpr ⟨leaderId, (fit leaderId names).elector founded.keyed⟩
    omega
  named := fun own leaderId names => by
    obtain ⟨fresh, same, opened⟩ := each own
    exact ⟨opened.currentTerm, opened.leaderId.symm.trans names⟩

/-- **A world to begin with** has elected the first voter if its clusters are started, and
nobody otherwise. -/
theorem World.Begins.elects {configs : Nat → Config} {begun : Bool} {w : World}
    (begins : w.Begins groupId configs peers begun) :
    ∃ home history, home.Founded ∧ Elects home history w := by
  obtain ⟨home, created, -⟩ := begins.clusters 0
  have founded := new_founded created
  cases begun with
  | false =>
    refine ⟨home, _, founded, @Elects.opening home w 0 none founded (fun _ no => nomatch no)
      (fun own => ?_) begins.answers⟩
    obtain ⟨fresh, created', isFresh⟩ := begins.clusters own
    refine ⟨fresh, new_nodes_eq created created', ?_⟩
    rw [isFresh]
    exact new_opened created'
  | true =>
    obtain ⟨leaderId, first, fit⟩ := firstHealthyVoter_of_new created
    refine ⟨home, _, founded, @Elects.opening home w 1 (some leaderId) founded
      (fun _ names => Option.some.inj names ▸ fit) (fun own => ?_) begins.answers⟩
    obtain ⟨fresh, created', isStarted⟩ := begins.clusters own
    have same := new_nodes_eq created created'
    refine ⟨fresh, same, ?_⟩
    rw [isStarted]
    refine start_opened created' ?_ ?_
    · rw [firstHealthyVoter, members, same]
      exact first
    · rw [Fit, same]
      exact fit

end Begins

/-! ## Election safety -/

theorem World.run_append (earlier later : List Event) :
    w.run (earlier ++ later) = (w.run earlier).run later :=
  foldl_append

theorem World.AllTimely.split {later : List Event} : ∀ {earlier : List Event} {w : World},
    w.AllTimely (earlier ++ later) → w.AllTimely earlier ∧ (w.run earlier).AllTimely later
  | [], _, timely => ⟨trivial, timely⟩
  | _ :: _, _, timely =>
    ⟨⟨timely.1, (AllTimely.split timely.2).1⟩, (AllTimely.split timely.2).2⟩

/-- **Election safety** of the runs in which every binding grant is heard in the term it was
given for, by a process that has not voted for somebody else: between any two states of the
run, two processes that name leaders of one term name the same one. -/
theorem one_leader_per_term {groupId : Nat} {configs : Nat → Config} {peers : List Peer}
    {begun : Bool} {w : World} (begins : w.Begins groupId configs peers begun)
    (earlier later : List Event) (timely : w.AllTimely (earlier ++ later)) {own other one two : Nat}
    (first : ((w.run earlier).clusters own).leaderId = some one)
    (second : ((w.run (earlier ++ later)).clusters other).leaderId = some two)
    (sameTerm : ((w.run earlier).clusters own).currentTerm
      = ((w.run (earlier ++ later)).clusters other).currentTerm) : one = two := by
  obtain ⟨home, history, founded, elects⟩ := begins.elects
  obtain ⟨before, after⟩ := timely.split
  obtain ⟨middle, -, elected⟩ := Elects.run founded earlier history w elects before
  obtain ⟨final, grows, elected'⟩ := Elects.run founded later middle _ elected after
  rw [← w.run_append] at elected'
  have led := grows.leads _ _ (elected.named own one first)
  rw [sameTerm] at led
  exact elected'.leader_unique led (elected'.named other two second)

section Runs

/-- A configuration whose followers do not assume a lease when they start. -/
def leaseless : Config := { Config.default with assumeLeaseWhenStart := false }

/-- Every process holds `fresh`, and nothing has been sent. -/
def silentWorld (fresh : RaftCluster) : World := ⟨fun _ => fresh, [], []⟩

def voteFor (candidateId term : Nat) (preVote : Bool) : VoteRequest :=
  ⟨1, term, candidateId, none, preVote, false⟩

def asks (candidateId voterId term : Nat) (preVote : Bool) : List Event :=
  [.ask voterId (voteFor candidateId term preVote), .vote voterId (voteFor candidateId term preVote)]

def hearsGrant (candidateId voterId term : Nat) (preVote : Bool) : Event :=
  .hear ⟨voterId, candidateId, preVote,
    ⟨term, true, if preVote then .preVoteGranted else .voteGranted⟩⟩

def standsForTermOne : List Event :=
  asks 1 2 1 true ++ [hearsGrant 1 2 1 true] ++ asks 1 2 1 false

/-- The candidate that hears the grant in its term leads it, and nobody else does after
voter 3 has answered too. -/
theorem one_leader_of_term_one : ∃ fresh, new 1 leaseless (votersOf [1, 2, 3]) = .ok fresh ∧
      ∃ w, (silentWorld fresh).run (standsForTermOne ++ [hearsGrant 1 2 1 false]
        ++ asks 1 3 1 false) = w ∧
      ∀ other two, (w.clusters other).leaderId = some two → 1 = (w.clusters other).currentTerm →
        1 = two := by
  have unique : ∀ fresh, new 1 leaseless (votersOf [1, 2, 3]) = .ok fresh →
      (silentWorld fresh).AllTimely (standsForTermOne ++ [hearsGrant 1 2 1 false]
        ++ asks 1 3 1 false) →
      (((silentWorld fresh).run (standsForTermOne ++ [hearsGrant 1 2 1 false])).clusters 1).leaderId
        = some 1 →
      (((silentWorld fresh).run (standsForTermOne ++ [hearsGrant 1 2 1 false])).clusters
        1).currentTerm = 1 → _ := fun fresh created timely first term other two second sameTerm =>
    @one_leader_per_term 1 (fun _ => leaseless) (votersOf [1, 2, 3]) false (silentWorld fresh)
      ⟨fun _ => ⟨fresh, created, rfl⟩, rfl, rfl⟩ _ _ timely 1 other 1 two first second
      (term.trans sameTerm)
  exact ⟨_, rfl, _, rfl, unique _ rfl (by decide +kernel) (by decide +kernel) (by decide +kernel)⟩

/-- **A grant of an earlier term is counted.** Voter 1 leads term 2 with voter 2's grant of term 1, and
voter 2 with the grant of voter 3. -/
theorem two_leaders_of_term_two : ∃ fresh, new 1 leaseless (votersOf [1, 2, 3]) = .ok fresh ∧
      ∃ w, (silentWorld fresh).run (standsForTermOne
        ++ [hearsGrant 1 2 1 true, hearsGrant 1 2 1 false]
        ++ asks 2 3 2 true ++ [hearsGrant 2 3 2 true]
        ++ asks 2 3 2 false ++ [hearsGrant 2 3 2 false]) = w ∧
      (w.clusters 1).leaderId = some 1 ∧ (w.clusters 1).currentTerm = 2 ∧
      (w.clusters 2).leaderId = some 2 ∧ (w.clusters 2).currentTerm = 2 := by
  refine ⟨_, rfl, _, rfl, ?_⟩
  decide +kernel

end Runs
end MatrixRaft
