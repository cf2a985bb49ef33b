import NettyCluster.Lib.Lease
import NettyCluster.Session.StoreAgreement

/-
  Records that expire while sessions stay open.

  Both records of a session are set for four hours. The
  user's record is set again by every login or logout of the
  user, the session's record by its own login only, and
  heartbeats set neither. Complete operations and ticks of
  the clock come in any order.

  Main declarations:
    * `Timed`, `TimedStep`
    * `TimedInv`
    * `Timed.Reachable`, `Timed.ReachableWhileSet`
    * `Timed.reachableWhileSet`
-/

------------------------------------------------------------
-- Timed Runs
------------------------------------------------------------

namespace NettyCluster

/- How long the record of a user is kept, in seconds. -/
def UserCacheImpl.CASHE_LONG : Nat :=
  60 * 4 * 60

/- How long the record of a session is kept. -/
def SessionCacheImpl.CASHE_LONG : Nat :=
  60 * 4 * 60

/- The store when only some keys are left. -/
def Redis.expire
    (redis : Redis)
    (users sessions : String → Bool) : Redis where
  users k := if users k then redis.users k else none
  sessions k := if sessions k then redis.sessions k else none
  users_key k u hUser := by
    split_ifs at hUser
    exact redis.users_key k u hUser
  sessions_key k s hSession := by
    split_ifs at hSession
    exact redis.sessions_key k s hSession

variable {ι : Type}

/-
  A cluster, the time in seconds, and when which keys of
  users and sessions have been set.
-/
structure Timed (ι : Type) where
  serial : Serial ι
  now : Nat
  userSets : List (String × Nat)
  sessionSets : List (String × Nat)

namespace Timed

/- A second passes; keys whose time is up are gone. -/
def tick (st : Timed ι) : Timed ι :=
  { st with
    now := st.now + 1
    serial :=
      ⟨⟨st.serial.cluster.nodes,
          st.serial.cluster.redis.expire
            (Lease.live UserCacheImpl.CASHE_LONG
              (st.now + 1) st.userSets)
            (Lease.live SessionCacheImpl.CASHE_LONG
              (st.now + 1) st.sessionSets)⟩,
        st.serial.added, st.serial.closings⟩ }

variable [DecidableEq ι]

/- A login sets the keys of the user and the session. -/
def add
    (st : Timed ι)
    (i : ι)
    (s : LocalSession)
    (clock : Int → String) : Timed ι :=
  { st with
    serial :=
      ⟨st.serial.cluster.add i s clock,
        (i, s) :: st.serial.added, st.serial.closings⟩
    userSets := (userKey s.userid, st.now) :: st.userSets
    sessionSets := (s.sessionId, st.now) :: st.sessionSets }

/-
  A logout sets the key of the user the handle is of. The
  session without a handle is not logged out.
-/
def close
    (st : Timed ι)
    (i : ι)
    (s : LocalSession)
    (clock : Int → String) : Timed ι :=
  { st with
    serial :=
      ⟨st.serial.cluster.close i s clock, st.serial.added,
        (i, s) :: st.serial.closings⟩
    userSets :=
      match st.serial.cluster.entry i s.sessionId with
      | none => st.userSets
      | some session =>
          (userKey session.getUserIdValue, st.now) ::
            st.userSets }

/- A lookup sets no key. -/
def lookup
    (st : Timed ι)
    (i : ι)
    (u : String) : Timed ι :=
  { st with
    serial :=
      ⟨st.serial.cluster.lookup i u, st.serial.added,
        st.serial.closings⟩ }

end Timed

/- Complete operations, heartbeats and ticks. -/
inductive TimedStep
    [DecidableEq ι] : Timed ι → Timed ι → Prop where
| add {st i s} (clock : Int → String) :
    (∀ p ∈ st.serial.added,
      p.2.sessionId ≠ s.sessionId) →
    s.userid ≠ none →
    TimedStep st (st.add i s clock)
| close {st i s} (clock : Int → String) :
    (i, s) ∈ st.serial.added →
    TimedStep st (st.close i s clock)
| lookup {st} (i : ι) (u : String) :
    TimedStep st (st.lookup i u)
| heartbeat {st i s} :
    st.serial.Open i s →
    -- the message is echoed, and no record is touched
    TimedStep st st
| tick {st} :
    TimedStep st st.tick

/- Nothing has been stored yet. -/
def TimedStart (st : Timed ι) : Prop :=
  SerialStart st.serial ∧ st.userSets = [] ∧
    st.sessionSets = []

------------------------------------------------------------
-- Reachable Sessions
------------------------------------------------------------

/-
  A lookup on a node returns the session of another: itself
  on its own node, and elsewhere its record.
-/
def Cluster.Returned
    (c : Cluster ι)
    (j i : ι)
    (s : LocalSession)
    (u : String) : Prop :=
  ∃ sessions,
    (SessionManager.getSessionByUserId (c.site j)
      (some u)).1 = some sessions ∧
    ∃ session ∈ sessions,
      session.getSessionId = s.sessionId ∧
      (i = j → session = .localSession s) ∧
      (i ≠ j →
        ∃ r, session = .remoteSession ⟨r⟩ ∧
          r.wsNode.id = c.id i)

namespace Timed

/-
  Sessions added and not closed are returned, and listed
  ones recorded.
-/
structure Reachable (st : Timed ι) : Prop where
  returned :
    ∀ i s u, st.serial.Open i s →
      s.userid = some u →
        ∀ j, st.serial.cluster.Returned j i s u
  recorded :
    ∀ u r,
      r ∈ UserCacheImpl.records st.serial.cluster.redis
        (some u) →
        ∃ r', SessionCacheImpl.get st.serial.cluster.redis
          r.sessionid = some r'

/-
  A session added and not closed is returned as long as its
  user's key has been set again, since the session's login,
  before its time was up; and listed ones are recorded for
  the time from their own login.
-/
structure ReachableWhileSet (st : Timed ι) : Prop where
  login :
    ∀ i s, st.serial.Open i s →
      ∃! t, (s.sessionId, t) ∈ st.sessionSets
  returned :
    ∀ i s u t, st.serial.Open i s →
      s.userid = some u →
        (s.sessionId, t) ∈ st.sessionSets →
          Lease.Kept UserCacheImpl.CASHE_LONG st.userSets u
              t st.now →
            ∀ j, st.serial.cluster.Returned j i s u
  recorded :
    ∀ u r t,
      r ∈ UserCacheImpl.records st.serial.cluster.redis
        (some u) →
        (r.sessionid, t) ∈ st.sessionSets →
          st.now < t + SessionCacheImpl.CASHE_LONG →
            ∃ r', SessionCacheImpl.get
              st.serial.cluster.redis r.sessionid = some r'

end Timed

/-
  The invariant of timed runs. A session is in its user's
  record while the user's key is kept, and has its own
  record while its time lasts.
-/
structure TimedInv (st : Timed ι) : Prop where
  handles : HandleInv st.serial
  added :
    ∀ sid t, (sid, t) ∈ st.sessionSets →
      t ≤ st.now ∧
        ∃ p ∈ st.serial.added, p.2.sessionId = sid
  once :
    ∀ sid t t', (sid, t) ∈ st.sessionSets →
      (sid, t') ∈ st.sessionSets → t = t'
  login :
    ∀ i s, st.serial.cluster.Open i s →
      ∃ t, (s.sessionId, t) ∈ st.sessionSets
  listed :
    ∀ i s u t, st.serial.cluster.Open i s →
      s.userid = some u →
        (s.sessionId, t) ∈ st.sessionSets →
          Lease.Kept UserCacheImpl.CASHE_LONG st.userSets u
              t st.now →
            ∃ r ∈ UserCacheImpl.records
                st.serial.cluster.redis (some u),
              r.sessionid = s.sessionId
  session :
    ∀ i s t, st.serial.cluster.Open i s →
      (s.sessionId, t) ∈ st.sessionSets →
        st.now < t + SessionCacheImpl.CASHE_LONG →
          ∃ r, SessionCacheImpl.get st.serial.cluster.redis
            s.sessionId = some r

namespace TimedInv

variable {st : Timed ι}

theorem start
    (hStart : TimedStart st) :
    TimedInv st := by
  rcases hStart with ⟨hSerial, hUsers, hSessions⟩
  have hSerialInv := SerialInv.start hSerial
  have hNone :
      ∀ i s, ¬ st.serial.cluster.Open i s := by
    intro i s hOpen
    have hAdded := hSerialInv.open_added hOpen
    rw [hSerial.2.2.2.1] at hAdded
    cases hAdded
  constructor
  case handles => exact hSerialInv.toHandleInv
  case login => exact fun i s hOpen => absurd hOpen (hNone i s)
  all_goals simp [hSessions]

------------------------------------------------------------
-- Steps
------------------------------------------------------------

section Records

variable (redis : Redis)
variable (users sessions : String → Bool)

/- What is left was there. -/
theorem mem_records_expire
    {uid : Option String}
    {r : SessionNodeCache}
    (hMem :
      r ∈ UserCacheImpl.records
        (redis.expire users sessions) uid) :
    r ∈ UserCacheImpl.records redis uid := by
  unfold UserCacheImpl.records UserCacheImpl.get
    Redis.expire at hMem
  by_cases hLive : users (userKey uid) = true
  · simpa [hLive, UserCacheImpl.records,
      UserCacheImpl.get] using hMem
  · simp [hLive] at hMem

/- What is live is left. -/
theorem records_expire
    (uid : Option String)
    (hLive : users (userKey uid) = true) :
    UserCacheImpl.records (redis.expire users sessions)
        uid =
      UserCacheImpl.records redis uid := by
  simp [UserCacheImpl.records, UserCacheImpl.get,
    Redis.expire, hLive]

theorem get_expire
    (sid : String) :
    SessionCacheImpl.get (redis.expire users sessions)
        sid =
      if sessions sid then SessionCacheImpl.get redis sid
      else none :=
  rfl

end Records


/- Expiry keeps the invariant. -/
theorem tick
    (hInv : TimedInv st) :
    TimedInv st.tick := by
  constructor
  case handles =>
    have hHandles := hInv.handles
    refine { hHandles with
      record_open := ?_
      session_open := ?_ }
    · intro u r hMem
      exact hHandles.record_open u r
        (mem_records_expire _ _ _ hMem)
    · intro sid r hSession
      apply hHandles.session_open sid r
      change SessionCacheImpl.get
        (Redis.expire _ _ _) sid = _ at hSession
      rw [get_expire] at hSession
      split_ifs at hSession
      exact hSession
  case added =>
    intro sid t hMem
    rcases hInv.added sid t hMem with ⟨hTime, hAdded⟩
    exact ⟨Nat.le_succ_of_le hTime, hAdded⟩
  case once => exact hInv.once
  case login => exact hInv.login
  case listed =>
    intro i s u t hOpen hUser hMem hKept
    rcases hKept.tick (hInv.added _ t hMem).1 with
      ⟨hBefore, hLive⟩
    have hRecords := records_expire
      st.serial.cluster.redis
      (Lease.live UserCacheImpl.CASHE_LONG (st.now + 1)
        st.userSets)
      (Lease.live SessionCacheImpl.CASHE_LONG (st.now + 1)
        st.sessionSets) (some u) hLive
    change ∃ r ∈ UserCacheImpl.records
      (Redis.expire _ _ _) (some u), _
    rw [hRecords]
    exact hInv.listed i s u t hOpen hUser hMem hBefore
  case session =>
    intro i s t hOpen hMem hLasts
    change st.now + 1 < _ at hLasts
    have hLive :
        Lease.live SessionCacheImpl.CASHE_LONG (st.now + 1)
          st.sessionSets s.sessionId = true :=
      Lease.live_iff.mpr ⟨t, hMem, hLasts⟩
    change ∃ r, SessionCacheImpl.get
      (Redis.expire _ _ _) _ = some r
    rw [get_expire, if_pos hLive]
    exact hInv.session i s t hOpen hMem (by omega)

variable [DecidableEq ι]

/- So does a lookup. -/
theorem lookup
    (hInv : TimedInv st)
    (i : ι)
    (u : String) :
    TimedInv (st.lookup i u) := by
  have hOpen := st.serial.cluster.lookup_open i u
  constructor
  case handles => exact hInv.handles.lookup i u
  case added => exact hInv.added
  case once => exact hInv.once
  case login =>
    intro j s hOpenS
    exact hInv.login j s ((hOpen j s).mp hOpenS)
  case listed =>
    intro j s v t hOpenS
    exact hInv.listed j s v t ((hOpen j s).mp hOpenS)
  case session =>
    intro j s t hOpenS
    exact hInv.session j s t ((hOpen j s).mp hOpenS)

/- A new session has been set by its login only. -/
theorem add
    (hInv : TimedInv st)
    {i : ι}
    {s : LocalSession}
    (clock : Int → String)
    (hFresh :
      ∀ p ∈ st.serial.added, p.2.sessionId ≠ s.sessionId)
    (hUser : s.userid ≠ none) :
    TimedInv (st.add i s clock) := by
  have hOpen := st.serial.cluster.add_open i s clock
    (hInv.handles.entry_fresh hFresh)
  have hNew : ∀ t, (s.sessionId, t) ∉ st.sessionSets := by
    intro t hMem
    rcases (hInv.added _ t hMem).2 with ⟨p, hAdded, hSid⟩
    exact hFresh p hAdded hSid
  have hOther :
      ∀ j t, st.serial.cluster.Open j t →
        t.sessionId ≠ s.sessionId :=
    fun j t hOpenT => hFresh _ (hInv.handles.open_added hOpenT)
  constructor
  case handles =>
    exact hInv.handles.add (i := i) clock hFresh hUser
  case added =>
    intro sid t hMem
    rcases List.mem_cons.mp hMem with hSame | hOld
    · rcases Prod.mk.inj hSame with ⟨rfl, rfl⟩
      exact ⟨le_refl _, (i, s), List.mem_cons_self, rfl⟩
    · rcases hInv.added sid t hOld with
        ⟨hTime, p, hAdded, hSid⟩
      exact ⟨hTime, p, List.mem_cons_of_mem _ hAdded, hSid⟩
  case once =>
    intro sid t t' hMem hMem'
    rcases List.mem_cons.mp hMem with hSame | hOld <;>
      rcases List.mem_cons.mp hMem' with hSame' | hOld'
    · rw [(Prod.mk.inj hSame).2, (Prod.mk.inj hSame').2]
    · rw [(Prod.mk.inj hSame).1] at hOld'
      exact absurd hOld' (hNew t')
    · rw [(Prod.mk.inj hSame').1] at hOld
      exact absurd hOld (hNew t)
    · exact hInv.once sid t t' hOld hOld'
  case login =>
    intro j t hOpenT
    rcases (hOpen j t).mp hOpenT with ⟨rfl, rfl⟩ | hOld
    · exact ⟨st.now, List.mem_cons_self⟩
    · rcases hInv.login j t hOld with ⟨time, hMem⟩
      exact ⟨time, List.mem_cons_of_mem _ hMem⟩
  case listed =>
    intro j t u time hOpenT hUserT hMem hKept
    rcases (hOpen j t).mp hOpenT with ⟨rfl, rfl⟩ | hOld
    · rw [← hUserT]
      exact st.serial.cluster.add_recorded_self j t clock
    · have hNe := hOther j t hOld
      have hMemOld : (t.sessionId, time) ∈ st.sessionSets := by
        rcases List.mem_cons.mp hMem with hSame | hBefore
        · exact absurd (Prod.mk.inj hSame).1 hNe
        · exact hBefore
      exact st.serial.cluster.add_recorded_ne i s clock hNe
        (hInv.listed j t u time hOld hUserT hMemOld
          hKept.of_set)
  case session =>
    intro j t time hOpenT hMem hLasts
    change ∃ r, SessionCacheImpl.get
      (st.serial.cluster.add i s clock).redis _ = some r
    rw [Cluster.add_getSession]
    rcases (hOpen j t).mp hOpenT with ⟨rfl, rfl⟩ | hOld
    · exact ⟨_, if_pos rfl⟩
    · have hNe := hOther j t hOld
      rw [if_neg hNe]
      rcases List.mem_cons.mp hMem with hSame | hBefore
      · exact absurd (Prod.mk.inj hSame).1 hNe
      · exact hInv.session j t time hOld hBefore hLasts

/- Closing a session leaves the others as they were. -/
theorem close
    (hInv : TimedInv st)
    {i : ι}
    {s : LocalSession}
    (clock : Int → String)
    (hAdded : (i, s) ∈ st.serial.added) :
    TimedInv (st.close i s clock) := by
  have hHandles := hInv.handles.close clock hAdded
  rcases hInv.handles.entry_added hAdded with
    hNone | hOpenS
  · -- only the closing itself is new
    have hSets :
        (st.close i s clock).userSets = st.userSets := by
      simp only [Timed.close, hNone]
    have hCluster :
        (st.close i s clock).serial.cluster =
          st.serial.cluster :=
      Cluster.close_none _ i s clock hNone
    constructor
    case handles => exact hHandles
    case added => exact hInv.added
    case once => exact hInv.once
    case login =>
      rw [hCluster]
      exact hInv.login
    case listed =>
      rw [hCluster, hSets]
      exact hInv.listed
    case session =>
      rw [hCluster]
      exact hInv.session
  · have hSets :
        (st.close i s clock).userSets =
          (userKey s.userid, st.now) :: st.userSets := by
      have hEntry :
          st.serial.cluster.entry i s.sessionId =
            some (.localSession s) := hOpenS
      simp only [Timed.close, hEntry]
      rfl
    constructor
    case handles => exact hHandles
    case added => exact hInv.added
    case once => exact hInv.once
    case login =>
      intro j t hOpenT
      exact hInv.login j t
        (hInv.handles.open_of_close clock hAdded hOpenT).1
    case listed =>
      intro j t u time hOpenT hUserT hMem hKept
      rcases hInv.handles.open_of_close clock hAdded hOpenT
        with ⟨hOld, hNe⟩
      rw [hSets] at hKept
      exact Cluster.close_recorded_ne clock hOpenS hNe
        (hInv.listed j t u time hOld hUserT hMem
          hKept.of_set)
    case session =>
      intro j t time hOpenT hMem hLasts
      rcases hInv.handles.open_of_close clock hAdded hOpenT
        with ⟨hOld, hNe⟩
      change ∃ r, SessionCacheImpl.get
        (st.serial.cluster.close i s clock).redis _ = some r
      rw [Cluster.close_getSession clock hOpenS, if_neg hNe]
      exact hInv.session j t time hOld hMem hLasts

/- Every step keeps the invariant. -/
theorem step
    {st' : Timed ι}
    (hInv : TimedInv st)
    (hStep : TimedStep st st') :
    TimedInv st' := by
  cases hStep with
  | add clock hFresh hUser =>
      exact hInv.add clock hFresh hUser
  | close clock hAdded => exact hInv.close clock hAdded
  | lookup i u => exact hInv.lookup i u
  | heartbeat => exact hInv
  | tick => exact hInv.tick

end TimedInv

------------------------------------------------------------
-- Lookups in Timed Runs
------------------------------------------------------------

/- A session in its user's record is returned. -/
theorem HandleInv.returned
    {st : Serial ι}
    (hInv : HandleInv st)
    {i : ι}
    {s : LocalSession}
    {u : String}
    {r : SessionNodeCache}
    (hOpen : st.cluster.Open i s)
    (hMem :
      r ∈ UserCacheImpl.records st.cluster.redis (some u))
    (hSid : r.sessionid = s.sessionId)
    (j : ι) :
    st.cluster.Returned j i s u := by
  have hSome :
      UserCacheImpl.records st.cluster.redis (some u) ≠
        [] :=
    List.ne_nil_of_mem hMem
  refine ⟨_, HandleInv.getSessionByUserId_records st.cluster
    j hSome, _, List.mem_map_of_mem hMem, ?_⟩
  rw [hInv.getSessionId_handle j r]
  exact ⟨hSid, hInv.handle_open hMem j hOpen hSid.symm⟩

namespace TimedInv

variable {st : Timed ι}

/- The invariant gives what lookups return. -/
theorem found_while_set
    (hInv : TimedInv st) :
    st.ReachableWhileSet := by
  have hOpenIff := hInv.handles.open_iff
  constructor
  case login =>
    intro i s hAdded
    rcases hInv.login i s ((hOpenIff i s).mpr hAdded) with
      ⟨t, hMem⟩
    exact ⟨t, hMem, fun t' hMem' =>
      hInv.once _ t' t hMem' hMem⟩
  case returned =>
    intro i s u t hAdded hUser hMem hKept j
    have hOpen := (hOpenIff i s).mpr hAdded
    rcases hInv.listed i s u t hOpen hUser hMem hKept with
      ⟨r, hRecord, hSid⟩
    exact hInv.handles.returned hOpen hRecord hSid j
  case recorded =>
    intro u r t hRecord hMem hLasts
    rcases hInv.handles.record_open u r hRecord with
      ⟨i, s, hOpen, hSid, _⟩
    rw [← hSid] at hMem ⊢
    exact hInv.session i s t hOpen hMem hLasts

end TimedInv

namespace Timed

variable [DecidableEq ι]

/-
  In every state of a timed run, open sessions are returned
  to every node as long as their users' keys have been set
  in time, and recorded for the time of their own keys.
-/
theorem reachableWhileSet
    (st : Timed ι)
    (hReach : Transition.Reach TimedStart TimedStep st) :
    st.ReachableWhileSet := by
  have hInv : TimedInv st :=
    hReach.invariant (fun _ hStart => .start hStart)
      (fun _ _ hInv hStep => hInv.step hStep)
  exact hInv.found_while_set

/- Two nodes, and a session that has logged in. -/
def empty : Timed Bool where
  serial :=
    ⟨⟨fun b => Node.new { id := if b then 1 else 2 },
        Redis.empty⟩, [], []⟩
  now := 0
  userSets := []
  sessionSets := []

def loggedIn : Timed Bool :=
  empty.add true ⟨⟨1, true⟩, some "u", "a"⟩ (fun _ => "0")

theorem empty_start : TimedStart empty :=
  ⟨serialStart_two_nodes, rfl, rfl⟩

theorem reach_loggedIn :
    Transition.Reach TimedStart TimedStep loggedIn :=
  (Transition.Reach.init empty_start).step
    (.add (fun _ => "0") (by simp [empty]) (by simp))

/- The session a second after its login. -/
theorem reachableWhileSet_loggedIn :
    loggedIn.tick.ReachableWhileSet :=
  reachableWhileSet _ (reach_loggedIn.step .tick)

omit [DecidableEq ι] in
/- A tick drops the record of a user whose time is up. -/
theorem records_tick
    (st : Timed ι)
    (u : String)
    (hDead :
      Lease.live UserCacheImpl.CASHE_LONG (st.now + 1)
        st.userSets u = false) :
    UserCacheImpl.records st.tick.serial.cluster.redis
      (some u) = [] := by
  have hGone :
      UserCacheImpl.get st.tick.serial.cluster.redis
        (some u) = none :=
    if_neg (by simp [hDead])
  unfold UserCacheImpl.records
  rw [hGone]

/- The session stays open for any time after its login. -/
theorem exists_waiting (n : Nat) :
    ∃ st : Timed Bool,
      Transition.Reach TimedStart TimedStep st ∧
      st.now = n ∧ st.userSets = [("u", 0)] ∧
      st.serial.Open true ⟨⟨1, true⟩, some "u", "a"⟩ := by
  induction n with
  | zero =>
      exact ⟨loggedIn, reach_loggedIn, rfl, rfl,
        List.mem_cons_self, List.not_mem_nil⟩
  | succ n ih =>
      rcases ih with ⟨st, hReach, hNow, hSets, hOpen⟩
      exact ⟨st.tick, hReach.step .tick,
        congrArg (· + 1) hNow, hSets, hOpen⟩

/- An open session that nobody finds after four hours. -/
theorem expired_not_reachable :
    ¬ ∀ st : Timed Bool,
      Transition.Reach TimedStart TimedStep st →
      st.Reachable := by
  intro hAll
  rcases exists_waiting 14399 with
    ⟨st, hReach, hNow, hSets, hOpen⟩
  have hGone := st.records_tick "u" (by
    rw [hNow, hSets]
    decide)
  rcases (hAll _ (hReach.step .tick)).returned _ _ "u"
    hOpen rfl true with ⟨sessions, hSome, _⟩
  rw [SessionManager.getSessionByUserId_eq] at hSome
  simp [Cluster.site, hGone] at hSome

end Timed

end NettyCluster
