import NettyCluster.Lib.Transition
import NettyCluster.Session.Node

/-
  How the sender to a peer connects.

  A sender has one bootstrap, which takes its event loop
  group once and throws when it is given it again. An attempt
  to connect ends with success or failure at any later time,
  also after the sender was stopped. The attempts' channels
  are named by the attempts' numbers.

  Main declarations:
    * `Connector`, `Connector.Step`
    * `Connector.Truthful`, `Connector.truthful_of_inTime`
    * `Connector.Retries`, `Connector.retries_iff`
-/

------------------------------------------------------------
-- Senders That Connect
------------------------------------------------------------

namespace NettyCluster

open MessageInfo

/-
  A sender with what its network does: whether the bootstrap
  has its group, the attempts that were started and those
  that are pending, the retries that are scheduled, the
  attempts that succeeded, the channels whose closing is
  listened to, and those that are closed.
-/
structure Connector where
  peerSender : PeerSender Nat
  reConnectCount : Nat
  group : Bool
  attempts : Nat
  pending : List Nat
  timers : Nat
  succeeded : List Nat
  listening : List Nat
  closed : List Nat
  stopped : Bool
deriving DecidableEq

namespace Connector

/- A sender that was made for a node. -/
def new (wsNode : WsNode) : Connector where
  peerSender := ⟨wsNode, false, none⟩
  reConnectCount := 0
  group := false
  attempts := 0
  pending := []
  timers := 0
  succeeded := []
  listening := []
  closed := []
  stopped := false

/- The channel of an attempt is open. -/
def Live
    (st : Connector)
    (n : Nat) : Prop :=
  n ∈ st.succeeded ∧ n ∉ st.closed

/- The sender has no channel any more. -/
def closeListener (st : Connector) : Connector :=
  { st with
    peerSender :=
      { st.peerSender with
        channel := none
        connectFlag := false } }

/-
  An attempt is over. The first failures schedule another
  one; everything else counts as being connected.
-/
def connectedListener
    (st : Connector)
    (n : Nat)
    (isSuccess : Bool) : Connector :=
  let reConnectCount :=
    if isSuccess then st.reConnectCount
    else st.reConnectCount + 1
  if isSuccess = false ∧ reConnectCount < 3 then
    { st with
      reConnectCount := reConnectCount
      timers := st.timers + 1
      peerSender :=
        { st.peerSender with connectFlag := false } }
  else
    { st with
      reConnectCount := reConnectCount
      peerSender :=
        { st.peerSender with
          connectFlag := true
          channel := some n }
      listening := n :: st.listening }

/-
  Start to connect. A bootstrap that has its group throws
  when it is given it again, which is caught and logged.
-/
def doConnect (st : Connector) : Connector :=
  if st.group then
    st
  else
    { st with
      group := true
      attempts := st.attempts + 1
      pending := st.attempts :: st.pending }

/-
  Shut the event loops down, which closes what is open at
  some later time.
-/
def stopConnecting (st : Connector) : Connector :=
  { st with
    stopped := true
    peerSender :=
      { st.peerSender with connectFlag := false } }

/- An attempt succeeds or fails. -/
def complete
    (st : Connector)
    (n : Nat)
    (isSuccess : Bool) : Connector :=
  connectedListener
    { st with
      pending := st.pending.erase n
      succeeded :=
        if isSuccess then n :: st.succeeded
        else st.succeeded }
    n isSuccess

/- A scheduled retry is due. -/
def retry (st : Connector) : Connector :=
  doConnect { st with timers := st.timers - 1 }

/- A channel closes. -/
def close
    (st : Connector)
    (n : Nat) : Connector :=
  let after := { st with closed := n :: st.closed }
  if n ∈ st.listening then after.closeListener else after

/- What happens to a sender. -/
inductive Event where
| doConnect
| completed (n : Nat) (isSuccess : Bool)
| retry
| closed (n : Nat)
| stopConnecting
deriving DecidableEq, Repr

/- An event of a sender, when it can happen. -/
inductive Step : Connector → Event → Connector → Prop where
| doConnect {st} :
    Step st .doConnect st.doConnect
| completed {st n} (isSuccess : Bool) :
    n ∈ st.pending →
    Step st (.completed n isSuccess)
      (st.complete n isSuccess)
| retry {st} :
    0 < st.timers →
    Step st .retry st.retry
| closed {st n} :
    n ∈ st.succeeded ∨ n ∈ st.listening →
    n ∉ st.closed →
    Step st (.closed n) (st.close n)
| stopConnecting {st} :
    Step st .stopConnecting st.stopConnecting

/- A sender nothing has happened to. -/
def Start (st : Connector) : Prop :=
  ∃ wsNode, st = new wsNode

/- Some event. -/
def AnyStep (st st' : Connector) : Prop :=
  ∃ event, Step st event st'

/-
  The flag is only set while the channel of the last attempt
  is open and the sender was not stopped, so that writing
  does not throw and uses open channels only.
-/
structure Truthful (st : Connector) : Prop where
  flag :
    st.peerSender.connectFlag = true →
      ∃ n, n + 1 = st.attempts ∧
        st.peerSender.channel = some n ∧
        st.Live n ∧ st.stopped = false
  write :
    ∀ pkg : Model,
      (st.peerSender.writeAndFlush pkg).thrown = none ∧
        ∀ n, st.peerSender.reaches = some n → st.Live n

/- No attempt succeeds after the sender was stopped. -/
def InTime
    (st : Connector) : Event → Prop
| .completed _ isSuccess =>
    isSuccess = true → st.stopped = false
| _ => True

/- An event in time. -/
def InTimeStep (st st' : Connector) : Prop :=
  ∃ event, Step st event st' ∧ InTime st event

end Connector

end NettyCluster

------------------------------------------------------------
-- One Attempt
------------------------------------------------------------

namespace NettyCluster

namespace Connector

/- How far the only attempt of a sender is. -/
inductive Phase where
| new
| connecting
| failed
| connected
| closed
deriving DecidableEq

namespace Phase

/- The bootstrap has its group. -/
def started : Phase → Bool
| new => false
| _ => true

/- The attempts that succeeded. -/
def succeeded : Phase → List Nat
| connected | closed => [0]
| _ => []

end Phase

/- A sender whose attempt is so far. -/
structure At
    (p : Phase)
    (st : Connector) : Prop where
  group : st.group = p.started
  attempts : st.attempts = p.started.toNat
  pending :
    st.pending = if p = .connecting then [0] else []
  reConnectCount :
    st.reConnectCount = if p = .failed then 1 else 0
  succeeded : st.succeeded = p.succeeded
  listening : st.listening = p.succeeded
  closed : st.closed = if p = .closed then [0] else []
  flag :
    st.peerSender.connectFlag = true →
      p = .connected ∧ st.peerSender.channel = some 0

namespace At

variable {p : Phase}
variable {st st' : Connector}

theorem start
    (hStart : Start st) :
    At .new st := by
  rcases hStart with ⟨wsNode, rfl⟩
  constructor <;> simp [new, Phase.started, Phase.succeeded]

/- Only the first call starts an attempt. -/
theorem doConnect
    (hAt : At p st) :
    At (if p = .new then .connecting else p)
      st.doConnect := by
  cases p with
  | new =>
      rw [if_pos rfl, Connector.doConnect,
        if_neg (by simp [hAt.group, Phase.started])]
      constructor
      case flag =>
        intro hFlag
        exact absurd (hAt.flag hFlag).1 (by simp)
      all_goals
        simp [hAt.attempts, hAt.pending, hAt.reConnectCount,
          hAt.succeeded, hAt.listening, hAt.closed,
          Phase.started, Phase.succeeded]
  | connecting | failed | connected | closed =>
      rw [if_neg (by simp), Connector.doConnect,
        if_pos (by simp [hAt.group, Phase.started])]
      exact hAt

/- The attempt ends. -/
theorem complete
    (hAt : At p st)
    {n : Nat}
    (isSuccess : Bool)
    (hPending : n ∈ st.pending) :
    n = 0 ∧
      At (if isSuccess then .connected else .failed)
        (st.complete n isSuccess) := by
  rw [hAt.pending] at hPending
  have hPhase : p = .connecting := by
    by_contra hNe
    rw [if_neg hNe] at hPending
    cases hPending
  subst hPhase
  obtain rfl : n = 0 := by simpa using hPending
  refine ⟨rfl, ?_⟩
  cases isSuccess <;>
    constructor <;>
    simp [Connector.complete, connectedListener, hAt.group,
      hAt.attempts, hAt.pending, hAt.reConnectCount,
      hAt.succeeded, hAt.listening, hAt.closed,
      Phase.started, Phase.succeeded]

/- The channel that closes is that of the attempt. -/
theorem close
    (hAt : At p st)
    {n : Nat}
    (hThere : n ∈ st.succeeded ∨ n ∈ st.listening)
    (hOpen : n ∉ st.closed) :
    At .closed (st.close n) := by
  rw [hAt.succeeded, hAt.listening, or_self] at hThere
  rw [hAt.closed] at hOpen
  cases p with
  | new | connecting | failed => cases hThere
  | closed => exact absurd hThere hOpen
  | connected =>
      obtain rfl : n = 0 := by
        simpa [Phase.succeeded] using hThere
      have hListening : 0 ∈ st.listening := by
        simp [hAt.listening, Phase.succeeded]
      rw [Connector.close, if_pos hListening]
      constructor <;>
        simp [closeListener, hAt.group, hAt.attempts,
          hAt.pending, hAt.reConnectCount, hAt.succeeded,
          hAt.listening, hAt.closed, Phase.started,
          Phase.succeeded]

/- Stopping a sender does not move its attempt. -/
theorem stopConnecting
    (hAt : At p st) :
    At p st.stopConnecting where
  group := hAt.group
  attempts := hAt.attempts
  pending := hAt.pending
  reConnectCount := hAt.reConnectCount
  succeeded := hAt.succeeded
  listening := hAt.listening
  closed := hAt.closed
  flag hFlag := by cases hFlag

/- The timers say nothing about the attempt. -/
theorem setTimers
    (hAt : At p st)
    (timers : Nat) :
    At p { st with timers := timers } :=
  { hAt with }

/- After every event the attempt is at some phase. -/
theorem step
    {event : Event}
    (hAt : At p st)
    (hStep : Step st event st') :
    ∃ p', At p' st' := by
  cases hStep with
  | doConnect => exact ⟨_, hAt.doConnect⟩
  | completed isSuccess hPending =>
      exact ⟨_, (hAt.complete isSuccess hPending).2⟩
  | retry =>
      exact ⟨_, (hAt.setTimers (st.timers - 1)).doConnect⟩
  | closed hThere hOpen =>
      exact ⟨_, hAt.close hThere hOpen⟩
  | stopConnecting => exact ⟨_, hAt.stopConnecting⟩

end At

end Connector

end NettyCluster

------------------------------------------------------------
-- The Flag
------------------------------------------------------------

namespace NettyCluster

open MessageInfo

namespace Connector

variable {st st' : Connector}

/- A sender that was stopped has its flag cleared. -/
def Cleared (st : Connector) : Prop :=
  st.stopped = true → st.peerSender.connectFlag = false

/- Events in time leave stopped senders cleared. -/
theorem Cleared.step
    {event : Event}
    {p : Phase}
    (hAt : At p st)
    (hCleared : Cleared st)
    (hStep : Step st event st')
    (hInTime : InTime st event) :
    Cleared st' := by
  cases hStep with
  | doConnect =>
      unfold Connector.doConnect
      split <;> exact hCleared
  | completed isSuccess hPending =>
      intro hStopped
      cases isSuccess with
      | true =>
          have hNotStopped := hInTime rfl
          simp [complete, connectedListener,
            hNotStopped] at hStopped
      | false =>
          -- the first failure clears the flag itself
          have hFailed := (hAt.complete false hPending).2
          by_contra hFlag
          rw [Bool.not_eq_false] at hFlag
          exact absurd (hFailed.flag hFlag).1 (by simp)
  | retry =>
      unfold Connector.retry Connector.doConnect
      split <;> exact hCleared
  | closed hThere hOpen =>
      unfold Connector.close
      split
      · exact fun _ => rfl
      · exact hCleared
  | stopConnecting => exact fun _ => rfl

/- With one attempt at most, a cleared flag is truthful. -/
theorem At.truthful
    {p : Phase}
    (hAt : At p st)
    (hCleared : Cleared st) :
    Truthful st := by
  have hConnected :
      st.peerSender.connectFlag = true →
        st.peerSender.channel = some 0 ∧
          st.attempts = 1 ∧ st.Live 0 ∧
          st.stopped = false := by
    intro hFlag
    rcases hAt.flag hFlag with ⟨rfl, hChannel⟩
    have hAttempts : st.attempts = 1 := hAt.attempts
    refine ⟨hChannel, hAttempts, ?_, ?_⟩
    · constructor
      · simp [hAt.succeeded, Phase.succeeded]
      · simp [hAt.closed]
    · by_contra hStopped
      rw [Bool.not_eq_false] at hStopped
      rw [hCleared hStopped] at hFlag
      cases hFlag
  constructor
  case flag =>
    intro hFlag
    rcases hConnected hFlag with
      ⟨hChannel, hAttempts, hLive, hStopped⟩
    exact ⟨0, hAttempts.symm, hChannel, hLive, hStopped⟩
  case write =>
    intro pkg
    unfold PeerSender.writeAndFlush PeerSender.reaches
    cases hFlag : st.peerSender.connectFlag with
    | false => simp
    | true =>
        rcases hConnected hFlag with ⟨hChannel, _, hLive, _⟩
        simp only [hChannel, if_true]
        refine ⟨rfl, ?_⟩
        rintro n ⟨⟩
        exact hLive

/-
  In every run in which no attempt succeeds after the sender
  was stopped, the flag tells the truth.
-/
theorem truthful_of_inTime
    (st : Connector)
    (hReach : Transition.Reach Start InTimeStep st) :
    Truthful st := by
  have hInv : (∃ p, At p st) ∧ Cleared st := by
    apply hReach.invariant
    · rintro st hStart
      refine ⟨⟨.new, .start hStart⟩, ?_⟩
      rcases hStart with ⟨wsNode, rfl⟩
      exact fun _ => rfl
    · rintro st st' ⟨⟨p, hAt⟩, hCleared⟩
        ⟨event, hStep, hInTime⟩
      exact ⟨hAt.step hStep,
        hCleared.step hAt hStep hInTime⟩
  rcases hInv with ⟨⟨p, hAt⟩, hCleared⟩
  exact hAt.truthful hCleared

/- A sender that connects at once. -/
theorem truthful_connected :
    Truthful ((new {}).doConnect.complete 0 true) := by
  apply truthful_of_inTime
  refine .step (.step (.init ⟨{}, rfl⟩)
    ⟨.doConnect, .doConnect, trivial⟩) ?_
  exact ⟨.completed 0 true,
    .completed true (by decide), fun _ => rfl⟩

/- An attempt succeeds after the sender was stopped. -/
theorem connected_after_stop :
    ¬ ∀ st : Connector,
      Transition.Reach Start AnyStep st →
      Truthful st := by
  intro hAll
  have hReach :
      Transition.Reach Start AnyStep
        ((new {}).doConnect.stopConnecting.complete
          0 true) :=
    .step (.step (.step (.init ⟨{}, rfl⟩)
      ⟨.doConnect, .doConnect⟩)
      ⟨.stopConnecting, .stopConnecting⟩)
      ⟨.completed 0 true, .completed true (by decide)⟩
  rcases (hAll _ hReach).flag rfl with
    ⟨n, -, -, -, hStopped⟩
  exact absurd hStopped (by decide)

end Connector

end NettyCluster

------------------------------------------------------------
-- Retries
------------------------------------------------------------

namespace NettyCluster

namespace Connector

/-
  The number of attempts it takes until one succeeds, three
  at most.
-/
def tries (outcomes : Nat → Bool) : Nat :=
  if outcomes 0 then 1
  else if outcomes 1 then 2
  else 3

/- Attempts end as given, and the retries run. -/
def Follows
    (outcomes : Nat → Bool) : Event → Prop
| .completed n isSuccess => isSuccess = outcomes n
| .retry => True
| _ => False

/- An event of a sender that is left alone. -/
def RetryStep
    (outcomes : Nat → Bool)
    (st st' : Connector) : Prop :=
  ∃ event, Step st event st' ∧ Follows outcomes event

/- No attempt is pending and no retry is scheduled. -/
def Settled (st : Connector) : Prop :=
  st.pending = [] ∧ st.timers = 0

/-
  The sender made as many attempts as it takes, and it is
  connected if one of the first three succeeds.
-/
structure Retried
    (outcomes : Nat → Bool)
    (st : Connector) : Prop where
  attempts : st.attempts = tries outcomes
  connected :
    (∃ n < 3, outcomes n = true) →
      st.peerSender.connectFlag = true ∧
        ∃ n, st.peerSender.channel = some n ∧ st.Live n
  unconnected :
    (∀ n < 3, outcomes n = false) →
      st.peerSender.connectFlag = false

/-
  A sender that starts to connect comes to rest, and has
  then retried.
-/
structure Retries
    (wsNode : WsNode)
    (outcomes : Nat → Bool) : Prop where
  settles :
    ∀ st,
      Transition.Reach (fun st => st = (new wsNode).doConnect)
        (RetryStep outcomes) st →
        ∃ st', Transition.Reach (fun st' => st' = st)
            (RetryStep outcomes) st' ∧
          Settled st'
  retried :
    ∀ st,
      Transition.Reach (fun st => st = (new wsNode).doConnect)
        (RetryStep outcomes) st →
        Settled st → Retried outcomes st

section Runs

variable (wsNode : WsNode)
variable (outcomes : Nat → Bool)

/- The sender when its first attempt is over. -/
def firstOver : Connector :=
  (new wsNode).doConnect.complete 0 (outcomes 0)

/- The sender starts to connect and is left alone. -/
def RetryReach : Connector → Prop :=
  Transition.Reach (fun st => st = (new wsNode).doConnect)
    (RetryStep outcomes)

variable {outcomes}

/- A first success leaves nothing to do. -/
theorem settled_firstOver
    (hSuccess : outcomes 0 = true) :
    Settled (firstOver wsNode outcomes) := by
  rw [firstOver, hSuccess]
  exact ⟨rfl, rfl⟩

/- A first failure schedules one retry. -/
theorem firstOver_failed
    (hFailure : outcomes 0 = false) :
    (firstOver wsNode outcomes).pending = [] ∧
      (firstOver wsNode outcomes).timers = 1 := by
  rw [firstOver, hFailure]
  exact ⟨rfl, rfl⟩

/- The retry throws, so that nothing is left to do. -/
theorem settled_retry
    (hFailure : outcomes 0 = false) :
    Settled (firstOver wsNode outcomes).retry := by
  rw [firstOver, hFailure]
  exact ⟨rfl, rfl⟩

/- The first attempt ends. -/
theorem retryStep_complete :
    RetryStep outcomes (new wsNode).doConnect
      (firstOver wsNode outcomes) :=
  ⟨.completed 0 (outcomes 0),
    .completed _ List.mem_cons_self, rfl⟩

theorem retryStep_retry
    (hFailure : outcomes 0 = false) :
    RetryStep outcomes (firstOver wsNode outcomes)
      (firstOver wsNode outcomes).retry := by
  refine ⟨.retry, .retry ?_, trivial⟩
  rw [(firstOver_failed wsNode hFailure).2]
  exact Nat.one_pos

variable {wsNode}
variable {st st' : Connector}

/- When a sender rests no event follows. -/
theorem not_retryStep_of_settled
    (hSettled : Settled st) :
    ¬ RetryStep outcomes st st' := by
  rintro ⟨event, hStep, hFollows⟩
  cases hStep with
  | doConnect => exact hFollows
  | completed isSuccess hPending =>
      rw [hSettled.1] at hPending
      cases hPending
  | retry hTimers =>
      rw [hSettled.2] at hTimers
      exact Nat.lt_irrefl 0 hTimers
  | closed => exact hFollows
  | stopConnecting => exact hFollows

/- All states of a sender that is left alone. -/
theorem retry_states
    (hReach : RetryReach wsNode outcomes st) :
    st = (new wsNode).doConnect ∨
      st = firstOver wsNode outcomes ∨
      (outcomes 0 = false ∧
        st = (firstOver wsNode outcomes).retry) := by
  induction hReach with
  | init hStart => exact .inl hStart
  | step _ hStep ih =>
      rcases ih with rfl | rfl | ⟨hFailure, rfl⟩
      · -- only the pending attempt can end
        rcases hStep with ⟨event, hStep, hFollows⟩
        cases hStep with
        | doConnect => exact hFollows.elim
        | completed isSuccess hPending =>
            obtain rfl := List.mem_singleton.mp hPending
            obtain rfl : isSuccess = outcomes 0 := hFollows
            exact .inr (.inl rfl)
        | retry hTimers => cases hTimers
        | closed => exact hFollows.elim
        | stopConnecting => exact hFollows.elim
      · cases hFirst : outcomes 0 with
        | true =>
            exact absurd hStep (not_retryStep_of_settled
              (settled_firstOver wsNode hFirst))
        | false =>
            -- only the scheduled retry can run
            have hOver := firstOver_failed wsNode hFirst
            rcases hStep with ⟨event, hStep, hFollows⟩
            cases hStep with
            | doConnect => exact hFollows.elim
            | completed isSuccess hPending =>
                rw [hOver.1] at hPending
                cases hPending
            | retry => exact .inr (.inr ⟨rfl, rfl⟩)
            | closed => exact hFollows.elim
            | stopConnecting => exact hFollows.elim
      · exact absurd hStep (not_retryStep_of_settled
          (settled_retry wsNode hFailure))

/- From every state the sender comes to rest. -/
theorem settles
    (hReach : RetryReach wsNode outcomes st) :
    ∃ st', Transition.Reach (fun st' => st' = st)
        (RetryStep outcomes) st' ∧
      Settled st' := by
  have hFirst :
      ∃ st', Transition.Reach
          (fun st' => st' = firstOver wsNode outcomes)
          (RetryStep outcomes) st' ∧
        Settled st' := by
    cases hOver : outcomes 0 with
    | true =>
        exact ⟨_, .init rfl, settled_firstOver wsNode hOver⟩
    | false =>
        exact ⟨_, .step (.init rfl)
          (retryStep_retry wsNode hOver),
          settled_retry wsNode hOver⟩
  rcases retry_states hReach with rfl | rfl | ⟨hOver, rfl⟩
  · rcases hFirst with ⟨st', hReach', hSettled⟩
    exact ⟨st',
      .of_step (retryStep_complete wsNode) hReach', hSettled⟩
  · exact hFirst
  · exact ⟨_, .init rfl, settled_retry wsNode hOver⟩

/- A first attempt that succeeds is all it takes. -/
theorem retried_firstOver
    (hSuccess : outcomes 0 = true) :
    Retried outcomes (firstOver wsNode outcomes) := by
  rw [firstOver, hSuccess]
  constructor
  case attempts => simp [tries, hSuccess]; rfl
  case connected =>
    exact fun _ =>
      ⟨rfl, 0, rfl, List.mem_cons_self, List.not_mem_nil⟩
  case unconnected =>
    intro hNone
    rw [hNone 0 (by decide)] at hSuccess
    cases hSuccess

end Runs

/- A failure is not retried, as one attempt is all there is. -/
theorem first_of_retries
    {wsNode : WsNode}
    {outcomes : Nat → Bool}
    (hRetries : Retries wsNode outcomes) :
    outcomes 0 = true := by
  by_contra hFailure
  rw [Bool.not_eq_true] at hFailure
  have hReach :
      RetryReach wsNode outcomes
        (firstOver wsNode outcomes).retry :=
    .step (.step (.init rfl) (retryStep_complete wsNode))
      (retryStep_retry wsNode hFailure)
  have hAttempts := (hRetries.retried _ hReach
    (settled_retry wsNode hFailure)).attempts
  have hOne :
      (firstOver wsNode outcomes).retry.attempts = 1 := by
    rw [firstOver, hFailure]
    rfl
  rw [hOne, tries, hFailure] at hAttempts
  revert hAttempts
  cases outcomes 1 <;> decide

/-
  A sender retries exactly when it does not need to: the
  first attempt is the only one.
-/
theorem retries_iff
    (wsNode : WsNode)
    (outcomes : Nat → Bool) :
    Retries wsNode outcomes ↔ outcomes 0 = true := by
  constructor
  · exact first_of_retries
  · intro hSuccess
    constructor
    case settles => exact fun st hReach => settles hReach
    case retried =>
      intro st hReach hSettled
      rcases retry_states hReach with
        rfl | rfl | ⟨hFailure, -⟩
      · cases hSettled.1
      · exact retried_firstOver hSuccess
      · rw [hFailure] at hSuccess
        cases hSuccess

/- The second attempt, which would succeed, is not made. -/
theorem retry_not_made :
    ¬ Retries {} fun n => decide (n = 1) := by
  intro hRetries
  exact absurd (first_of_retries hRetries) (by decide)

end Connector

end NettyCluster
