import NettyCluster.Lib.Transition
import NettyCluster.Session.SessionManager

/-
  Logging in on a pool thread while the channel closes.

  Each message that asks to log in makes a session and
  queues a task. The event loop later handles the closing of
  the channel. Steps are single reads and writes of what the
  threads share, so that tasks and closing interleave in
  every way.

  Main declarations:
    * `TaskPc`, `ClosePc`
    * `ClientLogin`, `ClientLogin.Step`
    * `ClientLogin.Orderly`, `ClientLogin.Clean`
    * `ClientLogin.clean_of_orderly`
-/

------------------------------------------------------------
-- Threads
------------------------------------------------------------

namespace NettyCluster

/- How far a login task is, and what it has read. -/
inductive TaskPc where
| queued
| captured (sid : String)
| named (sid : String)
| bound (sid : String)
| adding (sid : String) (uid : Option String)
| stored (sid : String) (uid : Option String)
| saved (sid : String) (uid : Option String)
| fetched
    (sid : String)
    (uid : Option String)
    (read : Option UserCache)
| recorded (sid : String) (uid : Option String)
| counted (sid : String) (uid : Option String)
| answered (connected : Bool)
| returned
deriving DecidableEq

/- How far the closing of the channel is. -/
inductive ClosePc where
| active
| bound (sid : String)
| found (sid : String) (session : ServerSession)
| removing (sid : String) (uid : Option String)
| fetched
    (sid : String)
    (uid : Option String)
    (read : Option UserCache)
| unrecorded (sid : String)
| deleted (sid : String)
| erased
| closed
deriving DecidableEq

/- A login task: who logs in, and how far it is. -/
structure LoginTask where
  from_ : String
  pc : TaskPc
deriving DecidableEq

namespace TaskPc

/- The number of steps a task has made. -/
def rank : TaskPc → Nat
| queued => 0
| captured _ => 1
| named _ => 2
| bound _ => 3
| adding _ _ => 4
| stored _ _ => 5
| saved _ _ => 6
| fetched _ _ _ => 7
| recorded _ _ => 8
| counted _ _ => 9
| answered _ => 10
| returned => 11

/- The task has written its user's record. -/
def Recorded (pc : TaskPc) : Prop :=
  8 ≤ pc.rank

instance (pc : TaskPc) : Decidable pc.Recorded :=
  inferInstanceAs (Decidable (8 ≤ pc.rank))

end TaskPc

namespace ClosePc

/- The number of steps the closing has made. -/
def rank : ClosePc → Nat
| active => 0
| bound _ => 1
| found _ _ => 2
| removing _ _ => 3
| fetched _ _ _ => 4
| unrecorded _ => 5
| deleted _ => 6
| erased => 7
| closed => 8

end ClosePc

/-
  A client's channel on its node: the session its handler
  holds, the one bound to the channel, the tasks queued for
  it, and the ids of all sessions made for it. The user of a
  session object is kept by the session's id.
-/
structure ClientLogin (ι : Type) where
  site : Site ι
  channel : Channel
  userids : String → Option String
  localSession : Option String
  sessionKey : Option String
  connectHandler : Bool
  tasks : List LoginTask
  closing : ClosePc
  created : List String

/-
  Set the user of a session. The handle in the map is the
  same object.
-/
def SessionMap.setUserid
    (m : SessionMap)
    (sid userid : String) : SessionMap :=
  match m.lookup sid with
  | some (.localSession s) =>
      m.insert sid
        (.localSession { s with userid := some userid })
  | _ => m

namespace ClientLogin

variable {ι : Type}

------------------------------------------------------------
-- Steps
------------------------------------------------------------

/- The session object with an id, as it is now. -/
def session
    (st : ClientLogin ι)
    (sid : String) : LocalSession :=
  ⟨st.channel, st.userids sid, sid⟩

def setUserid
    (st : ClientLogin ι)
    (sid userid : String) : ClientLogin ι :=
  { st with
    userids :=
      Function.update st.userids sid (some userid)
    site := { st.site with
      node := st.site.node.setSessionMap
        (SessionMap.setUserid st.site.node.sessionMap sid
          userid) } }

def bind
    (st : ClientLogin ι)
    (sid : String) : ClientLogin ι :=
  { st with sessionKey := some sid }

def setSite
    (st : ClientLogin ι)
    (site : Site ι) : ClientLogin ι :=
  { st with site := site }

/- The record of a session with the user that was read. -/
def sessionNodeCache
    (st : ClientLogin ι)
    (sid : String)
    (uid : Option String) : SessionNodeCache :=
  ⟨uid, sid, st.site.node.wsNode⟩

/- Write a changed user record back. -/
def saveUser
    (site : Site ι)
    (userCache : UserCache) : Site ι :=
  { site with
    redis := UserCacheImpl.save site.redis userCache }

/-
  The next step of a login task. The task reads the session
  of the handler when it runs, not when it was queued.
-/
def taskStep
    (clock : Int → String)
    (from_ : String)
    (st : ClientLogin ι) :
    TaskPc → ClientLogin ι × TaskPc
| .queued =>
    match st.localSession with
    | none => (st, .returned)
    | some sid => (st, .captured sid)
| .captured sid => (st.setUserid sid from_, .named sid)
| .named sid => (st.bind sid, .bound sid)
| .bound sid => (st, .adding sid (st.userids sid))
| .adding sid uid =>
    (st.setSite
      (SessionManager.putLocal st.site (st.session sid)),
      .stored sid uid)
| .stored sid uid =>
    (st.setSite
      (SessionManager.saveSession st.site
        ⟨st.channel, uid, sid⟩),
      .saved sid uid)
| .saved sid uid =>
    (st, .fetched sid uid
      (UserCacheImpl.get st.site.redis uid))
| .fetched sid uid read =>
    (st.setSite
      (saveUser st.site
        ((read.getD (UserCache.new uid)).addSession
          (st.sessionNodeCache sid uid))),
      .recorded sid uid)
| .recorded sid uid =>
    (st.setSite (SessionManager.incBalance st.site),
      .counted sid uid)
| .counted sid uid =>
    (st, .answered
      (SessionManager.notifyOtherWsNodeOnLine st.site
        (st.sessionNodeCache sid uid) clock).thrown.isNone)
| .answered connected =>
    -- only the callback of a login that worked takes the
    -- handler out
    ({ st with
        connectHandler :=
          st.connectHandler && !connected },
      .returned)
| .returned => (st, .returned)

/-
  The next step of closing the channel. Without a bound
  session the check for it throws, and nothing else is done.
-/
def closeStep
    (st : ClientLogin ι) :
    ClosePc → ClientLogin ι × ClosePc
| .active =>
    match st.sessionKey with
    | none => (st, .closed)
    | some sid => (st, .bound sid)
| .bound sid =>
    match st.site.node.sessionMap.lookup sid with
    | none => (st, .closed)
    | some session => (st, .found sid session)
| .found sid session =>
    match session with
    | .localSession s =>
        (st, .removing sid (st.userids s.sessionId))
    | .remoteSession s =>
        (st, .removing sid s.sessionNodeCache.userid)
| .removing sid uid =>
    (st, .fetched sid uid
      (UserCacheImpl.get st.site.redis uid))
| .fetched sid uid read =>
    (st.setSite
      (saveUser st.site
        ((read.getD (UserCache.new uid)).removeSession
          sid)),
      .unrecorded sid)
| .unrecorded sid =>
    (st.setSite (SessionManager.removeSession st.site sid),
      .deleted sid)
| .deleted sid =>
    (st.setSite (SessionManager.eraseLocal st.site sid),
      .erased)
| .erased =>
    (st.setSite (SessionManager.decrBalance st.site),
      .closed)
| .closed => (st, .closed)

/- No node has seen the session id yet. -/
structure Fresh
    (st : ClientLogin ι)
    (sid : String) : Prop where
  created : sid ∉ st.created
  entry : st.site.node.sessionMap.lookup sid = none
  session : SessionCacheImpl.get st.site.redis sid = none
  recorded :
    ∀ uid, sid ∉ sids (UserCacheImpl.records st.site.redis
      uid)

/- Whose step it is. -/
inductive Event where
| online
| task
| close
deriving DecidableEq

/-
  A step of the event loop or of a task. The event loop
  reads no more messages once it handles the closing.
-/
inductive Step
    (clock : Int → String) :
    ClientLogin ι → Event → ClientLogin ι → Prop where
| online {st sid from_} :
    st.connectHandler = true →
    st.closing = .active →
    Fresh st sid →
    Step clock st .online
      { st with
        localSession := some sid
        userids := Function.update st.userids sid none
        tasks := st.tasks ++ [⟨from_, .queued⟩]
        created := sid :: st.created }
| task {st before task after} :
    st.tasks = before ++ task :: after →
    Step clock st .task
      { (taskStep clock task.from_ st task.pc).1 with
        tasks := before ++
          ⟨task.from_,
            (taskStep clock task.from_ st task.pc).2⟩ ::
          after }
| close {st} :
    Step clock st .close
      { (closeStep st st.closing).1 with
        closing := (closeStep st st.closing).2 }

/- A channel that has just been connected. -/
structure Start
    (balance : Int32)
    (st : ClientLogin ι) : Prop where
  balance : st.site.node.wsNode.balance = balance
  sessionKey : st.sessionKey = none
  tasks : st.tasks = []
  closing : st.closing = .active
  created : st.created = []

/- The closing has been handled and every task has run. -/
def Finished (st : ClientLogin ι) : Prop :=
  st.closing = .closed ∧
    ∀ task ∈ st.tasks, task.pc = .returned

/- Nothing of the sessions of the channel is left. -/
structure Clean
    (balance : Int32)
    (st : ClientLogin ι) : Prop where
  entry :
    ∀ sid ∈ st.created,
      st.site.node.sessionMap.lookup sid = none
  session :
    ∀ sid ∈ st.created,
      SessionCacheImpl.get st.site.redis sid = none
  recorded :
    ∀ sid ∈ st.created, ∀ uid,
      sid ∉ sids (UserCacheImpl.records st.site.redis uid)
  balance : st.site.node.wsNode.balance = balance

/-
  The next step of the closing is not too early: it finds
  the session that logs in bound and in the map, and it
  writes the user's record after the login has.
-/
def OrderlyClose
    (st : ClientLogin ι) : ClosePc → Prop
| .active => st.tasks = [] ∨ st.sessionKey ≠ none
| .bound sid =>
    st.site.node.sessionMap.lookup sid ≠ none
| .fetched _ _ _ =>
    ∀ task ∈ st.tasks, task.pc.Recorded
| _ => True

/-
  The step is in order: there is one message to log in at
  most, and the closing is not too early.
-/
def Orderly
    (st : ClientLogin ι) : Event → Prop
| .online => st.created = []
| .task => True
| .close => OrderlyClose st st.closing

instance
    (st : ClientLogin ι)
    (pc : ClosePc) : Decidable (OrderlyClose st pc) :=
  match pc with
  | .active =>
      inferInstanceAs (Decidable (_ = [] ∨ _ ≠ none))
  | .bound _ => inferInstanceAs (Decidable (_ ≠ none))
  | .fetched _ _ _ =>
      inferInstanceAs (Decidable
        (∀ task ∈ st.tasks, task.pc.Recorded))
  | .found _ _ | .removing _ _ | .unrecorded _
  | .deleted _ | .erased | .closed =>
      inferInstanceAs (Decidable True)

instance
    (st : ClientLogin ι)
    (event : Event) : Decidable (Orderly st event) :=
  match event with
  | .online => inferInstanceAs (Decidable (_ = []))
  | .task => inferInstanceAs (Decidable True)
  | .close =>
      inferInstanceAs
        (Decidable (OrderlyClose st st.closing))

/- Some step. -/
def AnyStep
    (clock : Int → String)
    (st st' : ClientLogin ι) : Prop :=
  ∃ event, Step clock st event st'

/- A step that is in order. -/
def OrderlyStep
    (clock : Int → String)
    (st st' : ClientLogin ι) : Prop :=
  ∃ event, Step clock st event st' ∧ Orderly st event

------------------------------------------------------------
-- Threads That Run Alone
------------------------------------------------------------

/- Several steps of a task. -/
def taskRun
    (clock : Int → String)
    (from_ : String)
    (n : Nat)
    (st : ClientLogin ι)
    (pc : TaskPc) : ClientLogin ι × TaskPc :=
  (fun p => taskStep clock from_ p.1 p.2)^[n] (st, pc)

/- Several steps of the closing. -/
def closeRun
    (n : Nat)
    (st : ClientLogin ι)
    (pc : ClosePc) : ClientLogin ι × ClosePc :=
  (fun p => closeStep p.1 p.2)^[n] (st, pc)

/- A bound task that runs alone logs its session in. -/
theorem taskRun_add
    (clock : Int → String)
    (from_ : String)
    (st : ClientLogin ι)
    (sid : String) :
    (taskRun clock from_ 7 st (.bound sid)).1.site =
      (SessionManager.add st.site (st.session sid)
        clock).site :=
  rfl

/- A closing that runs alone is the session manager's. -/
theorem closeRun_closeSession
    (clock : Int → String)
    (st : ClientLogin ι)
    (hBound :
      ∀ sid s, st.site.node.sessionMap.lookup sid =
        some (.localSession s) → s = st.session sid) :
    (closeRun 8 st .active).1.site =
      (SessionManager.closeSession st.site
        (st.sessionKey.map st.session) clock).site := by
  cases hKey : st.sessionKey with
  | none => simp [closeRun, closeStep, hKey,
      SessionManager.closeSession]
  | some sid =>
      cases hLookup : st.site.node.sessionMap.lookup sid with
      | none =>
          simp [closeRun, closeStep, hKey, hLookup,
            SessionManager.closeSession, session,
            SessionManager.remove]
      | some handle =>
          cases handle with
          | localSession s =>
              have hSame := hBound sid s hLookup
              subst hSame
              simp [closeRun, closeStep, hKey, hLookup,
                SessionManager.closeSession, session,
                SessionManager.remove]
              rfl
          | remoteSession s =>
              simp [closeRun, closeStep, hKey, hLookup,
                SessionManager.closeSession, session,
                SessionManager.remove]
              rfl

end ClientLogin

end NettyCluster

------------------------------------------------------------
-- Traces of a Session
------------------------------------------------------------

namespace NettyCluster

namespace ClientLogin

variable {ι : Type}

/-
  What a node and the records have of one session of a user,
  once its login has made t steps and its closing c.
-/
structure Traces
    (balance : Int32)
    (sid : String)
    (uid : Option String)
    (site : Site ι)
    (t c : Nat) : Prop where
  entry :
    ∀ handle,
      site.node.sessionMap.lookup sid = some handle →
        (5 ≤ t ∧ c < 7) ∧
          ∃ s, handle = .localSession s ∧ s.sessionId = sid
  session :
    SessionCacheImpl.get site.redis sid ≠ none →
      6 ≤ t ∧ c < 6
  recorded :
    ∀ uid', sid ∈ sids (UserCacheImpl.records site.redis
        uid') →
      (8 ≤ t ∧ c < 5) ∧ userKey uid' = userKey uid
  balance :
    site.node.wsNode.balance =
      balance + (if 9 ≤ t then 1 else 0) -
        (if c = 8 then 1 else 0)

namespace Traces

variable {balance : Int32}
variable {sid : String}
variable {uid : Option String}
variable {site : Site ι}
variable {t c t' c' : Nat}

/- Steps that change none of it keep the traces. -/
theorem keep
    (hTraces : Traces balance sid uid site t c)
    (hEntry : 5 ≤ t ∧ c < 7 → 5 ≤ t' ∧ c' < 7)
    (hSession : 6 ≤ t ∧ c < 6 → 6 ≤ t' ∧ c' < 6)
    (hRecorded : 8 ≤ t ∧ c < 5 → 8 ≤ t' ∧ c' < 5)
    (hCounted : 9 ≤ t ↔ 9 ≤ t')
    (hClosed : c = 8 ↔ c' = 8) :
    Traces balance sid uid site t' c' where
  entry handle hLookup :=
    ⟨hEntry (hTraces.entry handle hLookup).1,
      (hTraces.entry handle hLookup).2⟩
  session hSome := hSession (hTraces.session hSome)
  recorded uid' hMem :=
    ⟨hRecorded (hTraces.recorded uid' hMem).1,
      (hTraces.recorded uid' hMem).2⟩
  balance := by
    rw [hTraces.balance]
    simp only [hCounted, hClosed]

/- Nothing is recorded yet, so the user may change. -/
theorem setUserid
    (hTraces : Traces balance sid uid site t c)
    (hEarly : t < 8)
    (uid' : Option String) :
    Traces balance sid uid' site t c where
  entry := hTraces.entry
  session := hTraces.session
  recorded uid'' hMem := by
    have hLate := (hTraces.recorded uid'' hMem).1.1
    omega
  balance := hTraces.balance

theorem putLocal
    (hTraces : Traces balance sid uid site 4 c)
    (hClose : c < 7)
    {s : LocalSession}
    (hSid : s.sessionId = sid) :
    Traces balance sid uid (SessionManager.putLocal site s)
      5 c where
  entry handle hLookup := by
    refine ⟨⟨le_refl 5, hClose⟩, s, ?_, hSid⟩
    subst hSid
    simpa [SessionManager.putLocal] using hLookup.symm
  session hSome := by
    have hLate := (hTraces.session hSome).1
    omega
  recorded uid' hMem := by
    have hLate := (hTraces.recorded uid' hMem).1.1
    omega
  balance := hTraces.balance

theorem saveSession
    (hTraces : Traces balance sid uid site 5 c)
    (hClose : c < 6)
    (s : LocalSession) :
    Traces balance sid uid
      (SessionManager.saveSession site s) 6 c where
  entry handle hLookup :=
    ⟨⟨by omega, by omega⟩,
      (hTraces.entry handle hLookup).2⟩
  session _ := ⟨le_refl 6, hClose⟩
  recorded uid' hMem := by
    have hLate := (hTraces.recorded uid' hMem).1.1
    omega
  balance := hTraces.balance

theorem saveUser
    (hTraces : Traces balance sid uid site 7 c)
    (hClose : c < 5)
    {u : UserCache}
    (hUser : userKey u.userId = userKey uid) :
    Traces balance sid uid (saveUser site u) 8 c where
  entry handle hLookup :=
    ⟨⟨by omega, by omega⟩,
      (hTraces.entry handle hLookup).2⟩
  session _ := ⟨by omega, by omega⟩
  recorded uid' hMem := by
    refine ⟨⟨le_refl 8, hClose⟩, ?_⟩
    by_contra hOther
    have hOld :
        sid ∈ sids (UserCacheImpl.records site.redis
          uid') := by
      simpa [ClientLogin.saveUser,
        UserCacheImpl.records_save, hUser, hOther]
        using hMem
    have hLate := (hTraces.recorded uid' hOld).1.1
    omega
  balance := hTraces.balance

theorem incBalance
    (hTraces : Traces balance sid uid site 8 c) :
    Traces balance sid uid (SessionManager.incBalance site)
      9 c where
  entry handle hLookup :=
    ⟨⟨by omega, (hTraces.entry handle hLookup).1.2⟩,
      (hTraces.entry handle hLookup).2⟩
  session hSome := ⟨by omega, (hTraces.session hSome).2⟩
  recorded uid' hMem :=
    ⟨⟨by omega, (hTraces.recorded uid' hMem).1.2⟩,
      (hTraces.recorded uid' hMem).2⟩
  balance := by
    have hBalance := hTraces.balance
    simp only [SessionManager.incBalance,
      Node.incBalance_balance, hBalance]
    simp
    grind

theorem removeSaveUser
    (hTraces : Traces balance sid uid site t 4)
    {u : UserCache}
    (hUser : userKey u.userId = userKey uid) :
    Traces balance sid uid
      (ClientLogin.saveUser site (u.removeSession sid))
      t 5 where
  entry handle hLookup :=
    ⟨⟨(hTraces.entry handle hLookup).1.1, by omega⟩,
      (hTraces.entry handle hLookup).2⟩
  session hSome := ⟨(hTraces.session hSome).1, by omega⟩
  recorded uid' hMem := by
    exfalso
    simp only [ClientLogin.saveUser,
      UserCacheImpl.records_save] at hMem
    by_cases hSame : userKey uid' = userKey uid
    · have hKey :
          userKey uid' =
            userKey (u.removeSession sid).userId :=
        hSame.trans hUser.symm
      rw [if_pos hKey] at hMem
      rcases List.mem_map.mp hMem with ⟨r, hIn, hSid⟩
      exact ((UserCache.mem_removeSession u sid r).mp
        hIn).2 hSid
    · have hKey :
          ¬ userKey uid' =
            userKey (u.removeSession sid).userId :=
        fun h => hSame (h.trans hUser)
      rw [if_neg hKey] at hMem
      exact hSame (hTraces.recorded uid' hMem).2
  balance := hTraces.balance

theorem removeSession
    (hTraces : Traces balance sid uid site t 5) :
    Traces balance sid uid
      (SessionManager.removeSession site sid) t 6 where
  entry handle hLookup :=
    ⟨⟨(hTraces.entry handle hLookup).1.1, by omega⟩,
      (hTraces.entry handle hLookup).2⟩
  session hSome := by
    simp [SessionManager.removeSession,
      SessionCacheImpl.get_remove] at hSome
  recorded uid' hMem := by
    have hEarly := (hTraces.recorded uid' hMem).1.2
    omega
  balance := hTraces.balance

theorem eraseLocal
    (hTraces : Traces balance sid uid site t 6) :
    Traces balance sid uid
      (SessionManager.eraseLocal site sid) t 7 where
  entry handle hLookup := by
    simp [SessionManager.eraseLocal] at hLookup
  session hSome := by
    have hEarly := (hTraces.session hSome).2
    omega
  recorded uid' hMem := by
    have hEarly := (hTraces.recorded uid' hMem).1.2
    omega
  balance := hTraces.balance

theorem decrBalance
    (hTraces : Traces balance sid uid site t 7) :
    Traces balance sid uid
      (SessionManager.decrBalance site) t 8 where
  entry handle hLookup := by
    have hEarly := (hTraces.entry handle hLookup).1.2
    omega
  session hSome := by
    have hEarly := (hTraces.session hSome).2
    omega
  recorded uid' hMem := by
    have hEarly := (hTraces.recorded uid' hMem).1.2
    omega
  balance := by
    have hBalance := hTraces.balance
    simp only [SessionManager.decrBalance,
      Node.decrBalance_balance, hBalance]
    simp

end Traces

end ClientLogin

end NettyCluster

------------------------------------------------------------
-- Orderly Runs
------------------------------------------------------------

namespace NettyCluster

/- A user record that was read for a user is that user's. -/
def OwnRecord
    (uid : Option String)
    (read : Option UserCache) : Prop :=
  userKey (read.getD (UserCache.new uid)).userId =
    userKey uid

theorem OwnRecord.get
    (redis : Redis)
    (uid : Option String) :
    OwnRecord uid (UserCacheImpl.get redis uid) :=
  UserCacheImpl.userKey_getOrNew redis uid

/- What a task has read is of the session and its user. -/
def TaskPc.About
    (sid : String)
    (userid : Option String) : TaskPc → Prop
| captured s | named s | bound s => s = sid
| adding s uid | stored s uid | saved s uid
| recorded s uid | counted s uid => s = sid ∧ uid = userid
| fetched s uid read =>
    s = sid ∧ uid = userid ∧ OwnRecord uid read
| queued | answered _ | returned => True

/- So is what the closing has read. -/
def ClosePc.About
    (sid : String)
    (userid : Option String) : ClosePc → Prop
| bound s | unrecorded s | deleted s => s = sid
| found s handle =>
    s = sid ∧
      ∃ session, handle = .localSession session ∧
        session.sessionId = sid
| removing s uid => s = sid ∧ uid = userid
| fetched s uid read =>
    s = sid ∧ uid = userid ∧ OwnRecord uid read
| active | erased | closed => True

namespace ClientLogin

variable {ι : Type}

/-
  The closing has found the session bound, then in the map,
  and written the user's record after the login.
-/
structure InOrder (t c : Nat) : Prop where
  bound : 1 ≤ c → 3 ≤ t
  stored : 2 ≤ c → 5 ≤ t
  recorded : 5 ≤ c → 8 ≤ t

/- Later steps ask for nothing new but that write. -/
theorem InOrder.next
    {t c : Nat}
    (hOrder : InOrder t c)
    (hFound : 2 ≤ c ∧ c ≠ 4) :
    InOrder t (c + 1) where
  bound _ := hOrder.bound (by omega)
  stored _ := hOrder.stored hFound.1
  recorded _ := hOrder.recorded (by omega)

/- No message to log in has been read. -/
structure NoLogin
    (balance : Int32)
    (st : ClientLogin ι) : Prop where
  tasks : st.tasks = []
  created : st.created = []
  sessionKey : st.sessionKey = none
  closing : st.closing = .active ∨ st.closing = .closed
  balance : st.site.node.wsNode.balance = balance

/-
  One session logs in, and its closing never gets ahead of
  what the login has to do first.
-/
structure OneLogin
    (balance : Int32)
    (sid : String)
    (task : LoginTask)
    (st : ClientLogin ι) : Prop where
  localSession : st.localSession = some sid
  tasks : st.tasks = [task]
  created : st.created = [sid]
  sessionKey :
    st.sessionKey =
      if 3 ≤ task.pc.rank then some sid else none
  task_about : task.pc.About sid (st.userids sid)
  close_about : st.closing.About sid (st.userids sid)
  order : InOrder task.pc.rank st.closing.rank
  traces :
    Traces balance sid (st.userids sid) st.site
      task.pc.rank st.closing.rank

/- The invariant of orderly runs. -/
def Inv
    (balance : Int32)
    (st : ClientLogin ι) : Prop :=
  NoLogin balance st ∨
    ∃ sid task, OneLogin balance sid task st

namespace OneLogin

variable {balance : Int32}
variable {sid : String}
variable {task : LoginTask}
variable {st : ClientLogin ι}

/- A task step that changes the site at most. -/
theorem taskSite
    (hOne : OneLogin balance sid task st)
    (site : Site ι)
    (connectHandler : Bool)
    (pc : TaskPc)
    (hNext :
      task.pc.rank ≤ pc.rank ∧
        (3 ≤ task.pc.rank ↔ 3 ≤ pc.rank))
    (hAbout : pc.About sid (st.userids sid))
    (hTraces :
      Traces balance sid (st.userids sid) site pc.rank
        st.closing.rank) :
    OneLogin balance sid ⟨task.from_, pc⟩
      { st with
        site := site
        connectHandler := connectHandler
        tasks := [⟨task.from_, pc⟩] } where
  localSession := hOne.localSession
  tasks := rfl
  created := hOne.created
  sessionKey := by
    simp only [hOne.sessionKey, hNext.2]
  task_about := hAbout
  close_about := hOne.close_about
  order :=
    ⟨fun hClose => (hOne.order.bound hClose).trans hNext.1,
      fun hClose => (hOne.order.stored hClose).trans hNext.1,
      fun hClose =>
        (hOne.order.recorded hClose).trans hNext.1⟩
  traces := hTraces

/- A task step that only reads. -/
theorem taskRead
    (hOne : OneLogin balance sid task st)
    (connectHandler : Bool)
    (pc : TaskPc)
    (hNext :
      task.pc.rank ≤ pc.rank ∧
        (3 ≤ task.pc.rank ↔ 3 ≤ pc.rank) ∧
        (9 ≤ task.pc.rank ↔ 9 ≤ pc.rank))
    (hAbout : pc.About sid (st.userids sid)) :
    OneLogin balance sid ⟨task.from_, pc⟩
      { st with
        connectHandler := connectHandler
        tasks := [⟨task.from_, pc⟩] } := by
  refine hOne.taskSite st.site connectHandler pc
    ⟨hNext.1, hNext.2.1⟩ hAbout ?_
  refine hOne.traces.keep ?_ ?_ ?_ hNext.2.2 Iff.rfl
  · exact fun h => ⟨h.1.trans hNext.1, h.2⟩
  · exact fun h => ⟨h.1.trans hNext.1, h.2⟩
  · exact fun h => ⟨h.1.trans hNext.1, h.2⟩

/- A step of the closing that changes the site at most. -/
theorem closeSite
    (hOne : OneLogin balance sid task st)
    (site : Site ι)
    (pc : ClosePc)
    (hAbout : pc.About sid (st.userids sid))
    (hOrder : InOrder task.pc.rank pc.rank)
    (hTraces :
      Traces balance sid (st.userids sid) site
        task.pc.rank pc.rank) :
    OneLogin balance sid task
      { st with site := site, closing := pc } where
  localSession := hOne.localSession
  tasks := hOne.tasks
  created := hOne.created
  sessionKey := hOne.sessionKey
  task_about := hOne.task_about
  close_about := hAbout
  order := hOrder
  traces := hTraces

/- A step of the closing that only reads. -/
theorem closeRead
    (hOne : OneLogin balance sid task st)
    (pc : ClosePc)
    (hEarly : st.closing.rank ≤ 4 ∧ pc.rank ≤ 4)
    (hAbout : pc.About sid (st.userids sid))
    (hOrder : InOrder task.pc.rank pc.rank) :
    OneLogin balance sid task
      { st with closing := pc } := by
  apply hOne.closeSite st.site pc hAbout hOrder
  refine hOne.traces.keep ?_ ?_ ?_ Iff.rfl ?_ <;>
    omega

/- The closing has not begun before the session is bound. -/
theorem closing_active
    (hOne : OneLogin balance sid task st)
    (hEarly : task.pc.rank < 3) :
    st.closing = .active := by
  have hBound := hOne.order.bound
  cases hClosing : st.closing <;>
    simp only [hClosing, ClosePc.rank] at hBound <;>
    first | rfl | omega

/- The task that sets the user of its session. -/
theorem setUserid
    {from_ : String}
    (hOne :
      OneLogin balance sid ⟨from_, .captured sid⟩ st) :
    OneLogin balance sid ⟨from_, .named sid⟩
      { st.setUserid sid from_ with
        tasks := [⟨from_, .named sid⟩] } := by
  have hTraces := hOne.traces
  have hActive := hOne.closing_active
    (by simp [TaskPc.rank])
  -- the handle is not in the map, so nothing there changes
  have hAbsent :
      st.site.node.sessionMap.lookup sid = none := by
    cases hLookup : st.site.node.sessionMap.lookup sid with
    | none => rfl
    | some handle =>
        have hLate := (hTraces.entry handle hLookup).1.1
        simp [TaskPc.rank] at hLate
  have hSite : (st.setUserid sid from_).site = st.site := by
    simp [ClientLogin.setUserid, SessionMap.setUserid,
      hAbsent]
  constructor
  case localSession => exact hOne.localSession
  case tasks => rfl
  case created => exact hOne.created
  case sessionKey => exact hOne.sessionKey
  case task_about => rfl
  case close_about =>
    change st.closing.About _ _
    rw [hActive]
    trivial
  case order =>
    change InOrder 2 st.closing.rank
    rw [hActive]
    constructor <;> simp [ClosePc.rank]
  case traces =>
    change Traces _ _ _ (st.setUserid sid from_).site 2
      st.closing.rank
    rw [hSite]
    have hNamed := hTraces.setUserid
      (by simp [TaskPc.rank])
      (Function.update st.userids sid (some from_) sid)
    refine hNamed.keep ?_ ?_ ?_ ?_ Iff.rfl <;>
      simp [TaskPc.rank]

/- The task that binds its session to the channel. -/
theorem bind
    {from_ : String}
    (hOne : OneLogin balance sid ⟨from_, .named sid⟩ st) :
    OneLogin balance sid ⟨from_, .bound sid⟩
      { st.bind sid with
        tasks := [⟨from_, .bound sid⟩] } := by
  have hTraces := hOne.traces
  have hActive := hOne.closing_active
    (by simp [TaskPc.rank])
  constructor
  case localSession => exact hOne.localSession
  case tasks => rfl
  case created => exact hOne.created
  case sessionKey => simp [ClientLogin.bind, TaskPc.rank]
  case task_about => rfl
  case close_about => exact hOne.close_about
  case order =>
    change InOrder 3 st.closing.rank
    rw [hActive]
    constructor <;> simp [ClosePc.rank]
  case traces =>
    change Traces _ _ _ st.site 3 st.closing.rank
    refine hTraces.keep ?_ ?_ ?_ ?_ Iff.rfl <;>
      simp [TaskPc.rank]

/- A step of the task keeps the login in order. -/
theorem task_step
    (clock : Int → String)
    (hOne : OneLogin balance sid task st) :
    OneLogin balance sid
      ⟨task.from_,
        (taskStep clock task.from_ st task.pc).2⟩
      { (taskStep clock task.from_ st task.pc).1 with
        tasks := [⟨task.from_,
          (taskStep clock task.from_ st task.pc).2⟩] } := by
  rcases task with ⟨from_, pc⟩
  have hAbout := hOne.task_about
  have hTraces := hOne.traces
  have hStored := hOne.order.stored
  have hRecorded := hOne.order.recorded
  cases pc with
  | queued =>
      have hStep :
          taskStep clock from_ st .queued =
            (st, .captured sid) := by
        simp only [taskStep, hOne.localSession]
      rw [hStep]
      exact hOne.taskRead st.connectHandler (.captured sid)
        (by simp [TaskPc.rank]) rfl
  | captured s =>
      have hSame : s = sid := hAbout
      subst hSame
      exact hOne.setUserid
  | named s =>
      have hSame : s = sid := hAbout
      subst hSame
      exact hOne.bind
  | bound s =>
      have hSame : s = sid := hAbout
      subst hSame
      exact hOne.taskRead st.connectHandler (.adding s _)
        (by simp [TaskPc.rank]) ⟨rfl, rfl⟩
  | adding s uid =>
      rcases hAbout with ⟨rfl, rfl⟩
      have hEarly : st.closing.rank < 7 := by
        simp only [TaskPc.rank] at hStored
        omega
      exact hOne.taskSite _ st.connectHandler
        (.stored s _) (by simp [TaskPc.rank])
        ⟨rfl, rfl⟩ (hTraces.putLocal hEarly rfl)
  | stored s uid =>
      rcases hAbout with ⟨rfl, rfl⟩
      have hEarly : st.closing.rank < 6 := by
        simp only [TaskPc.rank] at hRecorded
        omega
      exact hOne.taskSite _ st.connectHandler
        (.saved s _) (by simp [TaskPc.rank])
        ⟨rfl, rfl⟩ (hTraces.saveSession hEarly _)
  | saved s uid =>
      rcases hAbout with ⟨rfl, rfl⟩
      exact hOne.taskRead st.connectHandler
        (.fetched s _ _) (by simp [TaskPc.rank])
        ⟨rfl, rfl, OwnRecord.get _ _⟩
  | fetched s uid read =>
      rcases hAbout with ⟨rfl, rfl, hOwn⟩
      have hEarly : st.closing.rank < 5 := by
        simp only [TaskPc.rank] at hRecorded
        omega
      exact hOne.taskSite _ st.connectHandler
        (.recorded s _) (by simp [TaskPc.rank])
        ⟨rfl, rfl⟩ (hTraces.saveUser hEarly hOwn)
  | recorded s uid =>
      rcases hAbout with ⟨rfl, rfl⟩
      exact hOne.taskSite _ st.connectHandler
        (.counted s _) (by simp [TaskPc.rank])
        ⟨rfl, rfl⟩ hTraces.incBalance
  | counted s uid =>
      exact hOne.taskRead st.connectHandler (.answered _)
        (by simp [TaskPc.rank]) trivial
  | answered connected =>
      exact hOne.taskRead _ .returned
        (by simp [TaskPc.rank]) trivial
  | returned =>
      exact hOne.taskRead st.connectHandler .returned
        ⟨le_refl _, Iff.rfl, Iff.rfl⟩ trivial

/- A step of the closing in order keeps it so. -/
theorem close_step
    (hOne : OneLogin balance sid task st)
    (hOrderly : Orderly st .close) :
    OneLogin balance sid task
      { (closeStep st st.closing).1 with
        closing := (closeStep st st.closing).2 } := by
  have hAbout := hOne.close_about
  have hOrder := hOne.order
  have hTraces := hOne.traces
  have hRead := hOne.closeRead
  cases hClosing : st.closing with
  | active =>
      rw [hClosing] at hRead
      simp only [Orderly, hClosing, OrderlyClose,
        hOne.tasks, reduceCtorEq, false_or] at hOrderly
      have hLate : 3 ≤ task.pc.rank := by
        by_contra hEarly
        exact hOrderly
          (by rw [hOne.sessionKey, if_neg hEarly])
      have hKey : st.sessionKey = some sid := by
        rw [hOne.sessionKey, if_pos hLate]
      have hStep :
          closeStep st .active = (st, .bound sid) := by
        simp only [closeStep, hKey]
      rw [hStep]
      refine hRead (.bound sid) (by simp [ClosePc.rank])
        rfl ?_
      constructor <;> simp [ClosePc.rank, hLate]
  | bound s =>
      rw [hClosing] at hAbout hTraces hRead hOrder
      have hSame : s = sid := hAbout
      subst hSame
      simp only [Orderly, hClosing, OrderlyClose,
        ne_eq] at hOrderly
      cases hLookup :
          st.site.node.sessionMap.lookup s with
      | none => exact absurd hLookup hOrderly
      | some handle =>
          rcases hTraces.entry handle hLookup with
            ⟨⟨hLate, _⟩, hLocal⟩
          simp only [closeStep, hLookup]
          refine hRead (.found s handle)
            (by simp [ClosePc.rank]) ⟨rfl, hLocal⟩ ?_
          constructor <;> simp only [ClosePc.rank] <;> omega
  | found s handle =>
      rw [hClosing] at hAbout hRead hOrder
      rcases hAbout with ⟨rfl, session, rfl, hSid⟩
      exact hRead (.removing s _) (by simp [ClosePc.rank])
        ⟨rfl, by rw [hSid]⟩
        (hOrder.next (by simp [ClosePc.rank]))
  | removing s uid =>
      rw [hClosing] at hAbout hRead hOrder
      rcases hAbout with ⟨rfl, rfl⟩
      exact hRead (.fetched s _ _) (by simp [ClosePc.rank])
        ⟨rfl, rfl, OwnRecord.get _ _⟩
        (hOrder.next (by simp [ClosePc.rank]))
  | fetched s uid read =>
      rw [hClosing] at hAbout hTraces hOrder
      rcases hAbout with ⟨rfl, rfl, hOwn⟩
      simp only [Orderly, hClosing, OrderlyClose,
        hOne.tasks, List.mem_singleton, forall_eq]
        at hOrderly
      have hLate : 8 ≤ task.pc.rank := hOrderly
      refine hOne.closeSite _ (.unrecorded s) rfl ?_
        (hTraces.removeSaveUser hOwn)
      constructor <;> intro _ <;> omega
  | unrecorded s =>
      rw [hClosing] at hAbout hTraces hOrder
      have hSame : s = sid := hAbout
      subst hSame
      exact hOne.closeSite _ (.deleted s) rfl
        (hOrder.next (by simp [ClosePc.rank]))
        hTraces.removeSession
  | deleted s =>
      rw [hClosing] at hAbout hTraces hOrder
      have hSame : s = sid := hAbout
      subst hSame
      exact hOne.closeSite _ .erased trivial
        (hOrder.next (by simp [ClosePc.rank]))
        hTraces.eraseLocal
  | erased =>
      rw [hClosing] at hTraces hOrder
      exact hOne.closeSite _ .closed trivial
        (hOrder.next (by simp [ClosePc.rank]))
        hTraces.decrBalance
  | closed =>
      rw [hClosing] at hTraces hOrder
      exact hOne.closeSite st.site .closed trivial hOrder
        hTraces

end OneLogin

end ClientLogin

end NettyCluster

------------------------------------------------------------
-- Closed Channels
------------------------------------------------------------

namespace NettyCluster

namespace ClientLogin

variable {ι : Type}
variable {balance : Int32}
variable {st st' : ClientLogin ι}
variable (clock : Int → String)

theorem Inv.start
    (hStart : Start balance st) :
    Inv balance st :=
  .inl ⟨hStart.tasks, hStart.created, hStart.sessionKey,
    .inl hStart.closing, hStart.balance⟩

/- The one message to log in makes a session. -/
theorem NoLogin.online
    (hNone : NoLogin balance st)
    {sid : String}
    (from_ : String)
    (hActive : st.closing = .active)
    (hFresh : Fresh st sid) :
    OneLogin balance sid ⟨from_, .queued⟩
      { st with
        localSession := some sid
        userids := Function.update st.userids sid none
        tasks := st.tasks ++ [⟨from_, .queued⟩]
        created := sid :: st.created } := by
  have hTraces :
      ∀ uid, Traces balance sid uid st.site 0 0 := by
    intro uid
    constructor
    case entry =>
      intro handle hLookup
      simp [hFresh.entry] at hLookup
    case session =>
      intro hSome
      exact absurd hFresh.session hSome
    case recorded =>
      intro uid' hMem
      exact absurd hMem (hFresh.recorded uid')
    case balance => simp [hNone.balance]
  constructor
  case localSession => rfl
  case tasks => simp [hNone.tasks]
  case created => simp [hNone.created]
  case sessionKey => simp [hNone.sessionKey, TaskPc.rank]
  case task_about => trivial
  case close_about => simp [hActive, ClosePc.About]
  case order =>
    constructor <;> simp [hActive, ClosePc.rank]
  case traces =>
    simp only [hActive]
    exact hTraces _

/- A channel without a login closes without a trace. -/
theorem NoLogin.close_step
    (hNone : NoLogin balance st) :
    NoLogin balance
      { (closeStep st st.closing).1 with
        closing := (closeStep st st.closing).2 } := by
  rcases hNone.closing with hClosing | hClosing
  · simp only [hClosing, closeStep, hNone.sessionKey]
    exact ⟨hNone.tasks, hNone.created, rfl, .inr rfl,
      hNone.balance⟩
  · simp only [hClosing, closeStep]
    exact ⟨hNone.tasks, hNone.created, hNone.sessionKey,
      .inr rfl, hNone.balance⟩

/- Steps in order keep the invariant. -/
theorem Inv.step
    (hInv : Inv balance st)
    (hStep : OrderlyStep clock st st') :
    Inv balance st' := by
  rcases hStep with ⟨event, hStep, hOrderly⟩
  cases hStep with
  | online _ hActive hFresh =>
      rcases hInv with hNone | ⟨sid, task, hOne⟩
      · exact .inr ⟨_, _, hNone.online _ hActive hFresh⟩
      · have hCreated : st.created = [] := hOrderly
        simp [hOne.created] at hCreated
  | @task before task after hTasks =>
      rcases hInv with hNone | ⟨sid, task', hOne⟩
      · simp [hNone.tasks] at hTasks
      · have hOnly : before = [] ∧ task' = task ∧
            after = [] := by
          rw [hOne.tasks] at hTasks
          cases before with
          | nil => simpa [eq_comm] using hTasks
          | cons => simp at hTasks
        rcases hOnly with ⟨rfl, rfl, rfl⟩
        exact .inr ⟨sid, _, hOne.task_step clock⟩
  | close =>
      rcases hInv with hNone | ⟨sid, task, hOne⟩
      · exact .inl hNone.close_step
      · exact .inr ⟨sid, task, hOne.close_step hOrderly⟩

/- Once both have finished nothing is left. -/
theorem Inv.clean
    (hInv : Inv balance st)
    (hFinished : Finished st) :
    Clean balance st := by
  rcases hFinished with ⟨hClosed, hReturned⟩
  rcases hInv with hNone | ⟨sid, task, hOne⟩
  · constructor
    case balance => exact hNone.balance
    all_goals simp [hNone.created]
  · have hTraces := hOne.traces
    have hDone : task.pc = .returned :=
      hReturned task (by simp [hOne.tasks])
    rw [hClosed, hDone] at hTraces
    constructor
    case entry =>
      simp only [hOne.created, List.mem_singleton,
        forall_eq]
      by_contra hSome
      rcases Option.ne_none_iff_exists'.mp hSome with
        ⟨handle, hLookup⟩
      have hEarly := (hTraces.entry handle hLookup).1.2
      simp [ClosePc.rank] at hEarly
    case session =>
      simp only [hOne.created, List.mem_singleton,
        forall_eq]
      by_contra hSome
      have hEarly := (hTraces.session hSome).2
      simp [ClosePc.rank] at hEarly
    case recorded =>
      simp only [hOne.created, List.mem_singleton,
        forall_eq]
      intro uid hMem
      have hEarly := (hTraces.recorded uid hMem).1.2
      simp [ClosePc.rank] at hEarly
    case balance =>
      have hBalance := hTraces.balance
      simpa [TaskPc.rank, ClosePc.rank] using hBalance

/-
  In every run that keeps logging in and closing in order,
  a closed channel leaves nothing behind.
-/
theorem clean_of_orderly
    (balance : Int32)
    (st : ClientLogin ι)
    (hReach :
      Transition.Reach (Start balance) (OrderlyStep clock)
        st)
    (hFinished : Finished st) :
    Clean balance st := by
  have hInv : Inv balance st :=
    hReach.invariant (fun _ hStart => .start hStart)
      (fun _ _ hInv hStep => hInv.step clock hStep)
  exact hInv.clean hFinished

------------------------------------------------------------
-- Runs of One Login
------------------------------------------------------------

/- A task does not look at the queue. -/
theorem taskStep_tasks
    (from_ : String)
    (tasks : List LoginTask)
    (pc : TaskPc) :
    taskStep clock from_ { st with tasks := tasks } pc =
      ({ (taskStep clock from_ st pc).1 with
          tasks := tasks },
        (taskStep clock from_ st pc).2) := by
  cases pc with
  | queued =>
      cases hSession : st.localSession <;>
        simp [taskStep, hSession]
  | _ => rfl

/- The channel when one of its tasks has made n steps. -/
def taskRunAt
    (before after : List LoginTask)
    (from_ : String)
    (st : ClientLogin ι)
    (pc : TaskPc)
    (n : Nat) : ClientLogin ι :=
  { (taskRun clock from_ n st pc).1 with
    tasks :=
      before ++
        ⟨from_, (taskRun clock from_ n st pc).2⟩ ::
          after }

/- A task can run on at any time. -/
theorem reach_taskRun
    {init : ClientLogin ι → Prop}
    {step : ClientLogin ι → ClientLogin ι → Prop}
    (before after : List LoginTask)
    {from_ : String}
    {pc : TaskPc}
    (n : Nat)
    (hTask :
      ∀ k < n, ∀ st',
        Step clock
            (taskRunAt clock before after from_ st pc k)
            .task st' →
          step (taskRunAt clock before after from_ st pc k)
            st')
    (hReach :
      Transition.Reach init step
        (taskRunAt clock before after from_ st pc 0)) :
    Transition.Reach init step
      (taskRunAt clock before after from_ st pc n) := by
  induction n with
  | zero => exact hReach
  | succ n ih =>
      have hBefore :=
        ih fun k hLt => hTask k (Nat.lt_succ_of_lt hLt)
      have hNext := hBefore.step
        (hTask n (Nat.lt_succ_self n) _
          (@Step.task _ _ _ before _ after rfl))
      simp only [taskRunAt, taskStep_tasks] at hNext
      have hRun :
          taskRun clock from_ (n + 1) st pc =
            taskStep clock from_
              (taskRun clock from_ n st pc).1
              (taskRun clock from_ n st pc).2 :=
        Function.iterate_succ_apply' _ _ _
      unfold taskRunAt
      rw [hRun]
      exact hNext

/- A channel of an empty node. -/
def connected : ClientLogin Unit where
  site := ⟨Node.new {}, Redis.empty⟩
  channel := ⟨0, true⟩
  userids _ := none
  localSession := none
  sessionKey := none
  connectHandler := true
  tasks := []
  closing := .active
  created := []

/- The channel when its client has asked to log in. -/
def online : ClientLogin Unit :=
  { connected with
    localSession := some "s"
    userids := Function.update (fun _ => none) "s" none
    tasks := [⟨"u", .queued⟩]
    created := ["s"] }

theorem connected_start :
    Start 0 connected :=
  ⟨rfl, rfl, rfl, rfl, rfl⟩

theorem step_online :
    Step clock connected .online online :=
  .online rfl rfl
    ⟨by simp [connected], rfl, rfl,
      by simp [connected, UserCacheImpl.records,
        UserCacheImpl.get, Redis.empty, sids]⟩

/- The channel when its login has run to the end. -/
def loggedIn : ClientLogin Unit :=
  { (taskRun (fun _ => "") "u" 11 online .queued).1 with
    tasks := [⟨"u", .returned⟩] }

/- The channel when its closing has run to the end. -/
def closedAfter : ClientLogin Unit :=
  let (st, pc) := closeRun 8 loggedIn .active
  { st with closing := pc }

/- A login, and then the closing of the channel. -/
theorem clean_login_then_close :
    Finished closedAfter ∧ Clean 0 closedAfter := by
  have hLogin :
      Transition.Reach (Start 0) (OrderlyStep fun _ => "")
        loggedIn :=
    reach_taskRun _ [] [] 11
      (fun _ _ _ hStep => ⟨.task, hStep, trivial⟩)
      ((Transition.Reach.init connected_start).step
        ⟨.online, step_online _, rfl⟩)
  have h1 := hLogin.step ⟨.close, .close, by decide⟩
  have h2 := h1.step ⟨.close, .close, by decide⟩
  have h3 := h2.step ⟨.close, .close, trivial⟩
  have h4 := h3.step ⟨.close, .close, trivial⟩
  have h5 := h4.step ⟨.close, .close, by decide⟩
  have h6 := h5.step ⟨.close, .close, trivial⟩
  have h7 := h6.step ⟨.close, .close, trivial⟩
  have h8 := h7.step ⟨.close, .close, trivial⟩
  have hFinished : Finished closedAfter :=
    ⟨rfl, by decide⟩
  exact ⟨hFinished, clean_of_orderly _ 0 _ h8 hFinished⟩

/- The channel whose closing came before its login. -/
def leaked : ClientLogin Unit :=
  { (taskRun (fun _ => "") "u" 11
      { online with closing := .closed } .queued).1 with
    tasks := [⟨"u", .returned⟩] }

/- Closing before the login runs leaves the session. -/
theorem closed_before_login_leaks :
    ¬ ∀ (balance : Int32) (st : ClientLogin Unit),
      Transition.Reach (Start balance)
        (AnyStep fun _ => "") st →
      Finished st →
      Clean balance st := by
  intro hAll
  have hQueued :
      Transition.Reach (Start 0) (AnyStep fun _ => "")
        online :=
    (Transition.Reach.init connected_start).step
      ⟨.online, step_online _⟩
  have hReach :
      Transition.Reach (Start 0) (AnyStep fun _ => "")
        leaked :=
    reach_taskRun _ [] [] 11
      (fun _ _ _ hStep => ⟨.task, hStep⟩)
      (hQueued.step ⟨.close, .close⟩)
  have hClean := hAll 0 _ hReach ⟨rfl, by decide⟩
  have hGone := hClean.entry "s" (by decide)
  revert hGone
  decide

end ClientLogin

end NettyCluster
