import NettyCluster.Session.Cluster
import NettyCluster.Session.Login

/-
  Which session a login task takes.

  Several messages to log in may be read from one channel
  before their tasks run, and a task takes the session that
  the handler holds when it starts. As long as this is the
  session made for the task's own message, no session is
  recorded under another user's name; and as long as the
  node is not full, its counter is right.

  Main declarations:
    * `ClientLogin.logins`, `ClientLogin.Finds`
    * `ClientLogin.PairedStep`
    * `ClientLogin.OwnUser`
    * `ClientLogin.ownUser_of_paired`
-/

------------------------------------------------------------
-- Messages and Their Sessions
------------------------------------------------------------

namespace NettyCluster

namespace ClientLogin

variable {ι : Type}

/-
  The session made for each message, with the task that was
  queued for it, in the order of the messages.
-/
def logins
    (st : ClientLogin ι) : List (String × LoginTask) :=
  st.created.reverse.zip st.tasks

/-
  The handler holds the session of a message's own when the
  task of the message starts.
-/
def Finds
    (st : ClientLogin ι)
    (k : Nat) : Prop :=
  ∀ login, (logins st)[k]? = some login →
    login.2.pc = .queued →
      st.localSession = some login.1

/- A message is read, or a task makes a step. -/
def RunStep
    (clock : Int → String)
    (st st' : ClientLogin ι) : Prop :=
  Step clock st .online st' ∨ Step clock st .task st'

/- One session more still fits the node's counter. -/
def HasRoom (st : ClientLogin ι) : Prop :=
  SessionMap.localCount st.site.node.sessionMap + 1 <
    2 ^ 31

instance (st : ClientLogin ι) : Decidable st.HasRoom :=
  inferInstanceAs (Decidable (_ < _))

/-
  A step of which the task it moves, if any, starts with the
  session of its own message, on a node that is not full.
-/
structure PairedStep
    (clock : Int → String)
    (st st' : ClientLogin ι) : Prop where
  run : RunStep clock st st'
  finds :
    ∀ k, st.tasks[k]? ≠ st'.tasks[k]? → Finds st k
  room : st.HasRoom

/- No message has been read on a node that counts right. -/
structure LoginStart (st : ClientLogin ι) : Prop where
  tasks : st.tasks = []
  created : st.created = []
  closing : st.closing = .active
  balanced : st.site.node.Balanced

/- No login is half done. -/
def Idle (st : ClientLogin ι) : Prop :=
  ∀ task ∈ st.tasks,
    task.pc = .queued ∨ task.pc = .returned

/-
  A session of the channel is recorded only for the user of
  the message it was made for, who is the user of the
  session and of its record; and the node counts its
  sessions.
-/
structure OwnUser (st : ClientLogin ι) : Prop where
  recorded :
    ∀ login ∈ logins st, ∀ u,
      login.1 ∈ sids (UserCacheImpl.records st.site.redis
        (some u)) →
        u = login.2.from_ ∧
        st.userids login.1 = some u ∧
        ∃ r, SessionCacheImpl.get st.site.redis login.1 =
          some r ∧ r.userid = some u
  balanced : st.site.node.Balanced

/- The session a message made is next to its task. -/
theorem logins_split
    {st : ClientLogin ι}
    (hLength : st.tasks.length = st.created.length)
    {before after : List LoginTask}
    {task : LoginTask}
    (hTasks : st.tasks = before ++ task :: after) :
    ∃ sid front back,
      st.created.reverse = front ++ sid :: back ∧
      front.length = before.length ∧
      ∀ task',
        st.created.reverse.zip (before ++ task' :: after) =
          front.zip before ++ (sid, task') ::
            back.zip after := by
  have hLong :
      before.length < st.created.reverse.length := by
    rw [List.length_reverse, ← hLength, hTasks]
    simp
  refine ⟨st.created.reverse[before.length],
    st.created.reverse.take before.length,
    st.created.reverse.drop (before.length + 1), ?_, ?_, ?_⟩
  · rw [← List.drop_eq_getElem_cons hLong,
      List.take_append_drop]
  · simp only [List.length_take]
    omega
  · intro task'
    have hFront :
        (st.created.reverse.take before.length).length =
          before.length := by
      simp only [List.length_take]
      omega
    conv_lhs =>
      rw [← List.take_append_drop before.length
        st.created.reverse]
    rw [List.zip_append hFront,
      List.drop_eq_getElem_cons hLong, List.zip_cons_cons]

end ClientLogin

end NettyCluster

------------------------------------------------------------
-- Traces of a Message
------------------------------------------------------------

namespace NettyCluster

namespace TaskPc

/- What a task has read is of its own message. -/
def Own (sid from_ : String) : TaskPc → Prop
| queued | answered _ | returned => True
| captured sid' | named sid' | bound sid' => sid' = sid
| adding sid' uid | stored sid' uid | saved sid' uid
| fetched sid' uid _ | recorded sid' uid
| counted sid' uid =>
    sid' = sid ∧ uid = some from_

end TaskPc

namespace ClientLogin

variable {ι : Type}

/-
  What a node and the records have of the session of a
  message, once its task has made t steps.
-/
structure Trace
    (site : Site ι)
    (userids : String → Option String)
    (sid from_ : String)
    (t : Nat) : Prop where
  entry : t < 5 → site.node.sessionMap.lookup sid = none
  userid : 2 ≤ t → userids sid = some from_
  session :
    6 ≤ t → ∃ r, SessionCacheImpl.get site.redis sid =
      some r ∧ r.userid = some from_
  recorded :
    ∀ u, sid ∈ sids (UserCacheImpl.records site.redis
      (some u)) → u = from_ ∧ 8 ≤ t

/- A step of another task leaves the trace as it was. -/
theorem Trace.frame
    {site site' : Site ι}
    {userids userids' : String → Option String}
    {sid from_ : String}
    {t : Nat}
    (hTrace : Trace site userids sid from_ t)
    (hEntry :
      site'.node.sessionMap.lookup sid =
        site.node.sessionMap.lookup sid)
    (hUserid : userids' sid = userids sid)
    (hSession :
      SessionCacheImpl.get site'.redis sid =
        SessionCacheImpl.get site.redis sid)
    (hRecorded :
      ∀ u, sid ∈ sids (UserCacheImpl.records site'.redis
          (some u)) →
        sid ∈ sids (UserCacheImpl.records site.redis
          (some u)) ∨ (u = from_ ∧ 8 ≤ t)) :
    Trace site' userids' sid from_ t where
  entry hEarly := hEntry.trans (hTrace.entry hEarly)
  userid hLate := hUserid.trans (hTrace.userid hLate)
  session hLate := by
    rw [hSession]
    exact hTrace.session hLate
  recorded u hMem := by
    rcases hRecorded u hMem with hOld | hNew
    · exact hTrace.recorded u hOld
    · exact hNew

/- A step that writes nothing about the session. -/
theorem Trace.later
    {site : Site ι}
    {userids : String → Option String}
    {sid from_ : String}
    {t t' : Nat}
    (hTrace : Trace site userids sid from_ t)
    (hNext :
      t ≤ t' ∧ (2 ≤ t' → 2 ≤ t) ∧ (6 ≤ t' → 6 ≤ t)) :
    Trace site userids sid from_ t' where
  entry hEarly := hTrace.entry (by omega)
  userid hLate := hTrace.userid (hNext.2.1 hLate)
  session hLate := hTrace.session (hNext.2.2 hLate)
  recorded u hMem := by
    rcases hTrace.recorded u hMem with ⟨hUser, hLate⟩
    exact ⟨hUser, hLate.trans hNext.1⟩

/- The tasks that have come at least so far. -/
def reached
    (t : Nat)
    (tasks : List LoginTask) : Nat :=
  tasks.countP fun task => t ≤ task.pc.rank

/-
  What a task read as the record of its user: sessions of
  the channel that were recorded for the user, and of other
  sessions what is recorded now.
-/
structure ReadOf
    (st : ClientLogin ι)
    (from_ : String)
    (u : UserCache) : Prop where
  user : userKey u.userId = from_
  own :
    ∀ login ∈ logins st, login.1 ∈ sids u.map →
      login.2.from_ = from_ ∧ 8 ≤ login.2.pc.rank
  others :
    ∀ sid ∉ st.created,
      sid ∈ sids u.map ↔
        sid ∈ sids (UserCacheImpl.records st.site.redis
          (some from_))

/-
  The invariant of runs in which every task takes its own
  session. The counter and the number of sessions differ by
  the logins that are between the two.
-/
structure PairInv (st : ClientLogin ι) : Prop where
  length : st.tasks.length = st.created.length
  nodup : st.created.Nodup
  traces :
    ∀ login ∈ logins st,
      Trace st.site st.userids login.1 login.2.from_
        login.2.pc.rank
  own :
    ∀ login ∈ logins st,
      login.2.pc.Own login.1 login.2.from_
  fetched :
    ∀ login ∈ logins st, ∀ sid uid read,
      login.2.pc = .fetched sid uid read →
        ReadOf st login.2.from_
          (read.getD (UserCache.new uid))
  counted :
    st.site.node.wsNode.balance +
        Int32.ofNat (reached 5 st.tasks) =
      Int32.ofNat
          (SessionMap.localCount st.site.node.sessionMap) +
        Int32.ofNat (reached 9 st.tasks)

namespace PairInv

variable {st : ClientLogin ι}

theorem start
    (hStart : LoginStart st) :
    PairInv st := by
  have hLogins : logins st = [] := by
    simp [logins, hStart.created]
  constructor
  case length => simp [hStart.tasks, hStart.created]
  case nodup => simp [hStart.created]
  case counted =>
    rw [hStart.tasks, hStart.balanced.counted]
    rfl
  all_goals simp [hLogins]

/- The session of a message is one of the channel. -/
theorem mem_created
    {st : ClientLogin ι}
    {login : String × LoginTask}
    (hMem : login ∈ logins st) :
    login.1 ∈ st.created :=
  List.mem_reverse.mp
    (List.of_mem_zip (a := login.1) (b := login.2) hMem).1

/- A message makes a session nobody has seen. -/
theorem online
    (hInv : PairInv st)
    {sid : String}
    (from_ : String)
    (hFresh : Fresh st sid) :
    PairInv
      { st with
        localSession := some sid
        userids := Function.update st.userids sid none
        tasks := st.tasks ++ [⟨from_, .queued⟩]
        created := sid :: st.created } := by
  have hLength :
      st.created.reverse.length = st.tasks.length := by
    rw [List.length_reverse, hInv.length]
  have hLogins :
      (sid :: st.created).reverse.zip
          (st.tasks ++ [⟨from_, .queued⟩]) =
        logins st ++ [(sid, ⟨from_, .queued⟩)] := by
    rw [List.reverse_cons, List.zip_append hLength]
    rfl
  have hOther : ∀ login ∈ logins st, login.1 ≠ sid := by
    intro login hMem hSame
    apply hFresh.created
    rw [← hSame]
    exact mem_created hMem
  constructor
  case length => simp [hInv.length]
  case nodup =>
    exact List.nodup_cons.mpr ⟨hFresh.created, hInv.nodup⟩
  case traces =>
    intro login hMem
    rw [logins, hLogins, List.mem_append,
      List.mem_singleton] at hMem
    rcases hMem with hOld | rfl
    · exact (hInv.traces login hOld).frame rfl
        (Function.update_of_ne (hOther login hOld) _ _) rfl
        (fun _ hMem => .inl hMem)
    · constructor
      case entry => exact fun _ => hFresh.entry
      case userid => simp [TaskPc.rank]
      case session => simp [TaskPc.rank]
      case recorded =>
        intro u hMem
        exact absurd hMem (hFresh.recorded (some u))
  case own =>
    intro login hMem
    rw [logins, hLogins, List.mem_append,
      List.mem_singleton] at hMem
    rcases hMem with hOld | rfl
    · exact hInv.own login hOld
    · trivial
  case fetched =>
    intro login hMem sid' uid read hPc
    rw [logins, hLogins, List.mem_append,
      List.mem_singleton] at hMem
    rcases hMem with hOld | rfl
    · have hRead := hInv.fetched login hOld sid' uid read hPc
      constructor
      case user => exact hRead.user
      case own =>
        intro other hMem hListed
        rw [logins, hLogins, List.mem_append,
          List.mem_singleton] at hMem
        rcases hMem with hOther | rfl
        · exact hRead.own other hOther hListed
        · -- a read lists no session that is new now
          have hNow :=
            (hRead.others sid hFresh.created).mp hListed
          exact absurd hNow (hFresh.recorded _)
      case others =>
        intro other hMem
        apply hRead.others
        intro hOld
        exact hMem (List.mem_cons_of_mem sid hOld)
    · simp at hPc
  case counted =>
    have hCounted := hInv.counted
    simp only [reached, List.countP_append,
      List.countP_singleton, TaskPc.rank] at hCounted ⊢
    simpa using hCounted

/- A step of a task moves one pair and keeps the others. -/
theorem logins_moved
    (hInv : PairInv st)
    {before after : List LoginTask}
    {task : LoginTask}
    (hTasks : st.tasks = before ++ task :: after) :
    ∃ sid,
      (logins st)[before.length]? = some (sid, task) ∧
      ∀ task' login,
        login ∈ st.created.reverse.zip
            (before ++ task' :: after) ↔
          login = (sid, task') ∨
            (login ∈ logins st ∧ login.1 ≠ sid) := by
  rcases logins_split hInv.length hTasks with
    ⟨sid, front, back, hCreated, hFront, hZip⟩
  have hLogins := hZip task
  rw [← hTasks] at hLogins
  have hNodup : (front ++ sid :: back).Nodup := by
    rw [← hCreated]
    exact List.nodup_reverse.mpr hInv.nodup
  have hOther :
      ∀ login ∈ front.zip before ++ back.zip after,
        login.1 ≠ sid := by
    intro login hMem hSame
    rw [List.nodup_middle, List.nodup_cons,
      List.mem_append] at hNodup
    apply hNodup.1
    rw [← hSame]
    rcases List.mem_append.mp hMem with hLeft | hRight
    · exact .inl (List.of_mem_zip (a := login.1)
        (b := login.2) hLeft).1
    · exact .inr (List.of_mem_zip (a := login.1)
        (b := login.2) hRight).1
  refine ⟨sid, ?_, ?_⟩
  · rw [logins, hLogins, List.getElem?_append_right]
    · simp [hFront]
    · simp [hFront]
  · intro task' login
    have hMem :
        login ∈ logins st ∧ login.1 ≠ sid ↔
          login ∈ front.zip before ++ back.zip after := by
      rw [logins, hLogins]
      constructor
      · rintro ⟨hMem, hNe⟩
        rw [List.mem_append, List.mem_cons] at hMem
        rw [List.mem_append]
        rcases hMem with hLeft | rfl | hRight
        · exact .inl hLeft
        · exact absurd rfl hNe
        · exact .inr hRight
      · intro hMem
        refine ⟨?_, hOther login hMem⟩
        rw [List.mem_append, List.mem_cons]
        rw [List.mem_append] at hMem
        exact hMem.imp_right .inr
    rw [hZip task', hMem]
    simp only [List.mem_append, List.mem_cons]
    tauto

end PairInv

------------------------------------------------------------
-- Steps of a Task
------------------------------------------------------------

/-
  What a step of the task of one session leaves as it is:
  everything of the other sessions. The sessions and the
  counter change with the step that is for it.
-/
structure Moved
    (st st' : ClientLogin ι)
    (sid : String)
    (pc pc' : TaskPc) : Prop where
  created : st'.created = st.created
  rank : pc.rank ≤ pc'.rank
  entry :
    ∀ sid' ≠ sid,
      st'.site.node.sessionMap.lookup sid' =
        st.site.node.sessionMap.lookup sid'
  userid :
    ∀ sid' ≠ sid, st'.userids sid' = st.userids sid'
  session :
    ∀ sid' ≠ sid,
      SessionCacheImpl.get st'.site.redis sid' =
        SessionCacheImpl.get st.site.redis sid'
  recorded :
    ∀ login ∈ logins st, login.1 ≠ sid →
      ∀ u, login.1 ∈ sids (UserCacheImpl.records
          st'.site.redis (some u)) →
        login.1 ∈ sids (UserCacheImpl.records
            st.site.redis (some u)) ∨
          (u = login.2.from_ ∧ 8 ≤ login.2.pc.rank)
  others :
    ∀ u, ∀ sid' ∉ st.created,
      sid' ∈ sids (UserCacheImpl.records st'.site.redis
          (some u)) ↔
        sid' ∈ sids (UserCacheImpl.records st.site.redis
          (some u))
  count :
    SessionMap.localCount st'.site.node.sessionMap +
        (if 5 ≤ pc.rank then 1 else 0) =
      SessionMap.localCount st.site.node.sessionMap +
        (if 5 ≤ pc'.rank then 1 else 0)
  balance :
    st'.site.node.wsNode.balance +
        Int32.ofNat (if 9 ≤ pc.rank then 1 else 0) =
      st.site.node.wsNode.balance +
        Int32.ofNat (if 9 ≤ pc'.rank then 1 else 0)

/- A step that leaves the site as it is. -/
theorem Moved.keep
    {st st' : ClientLogin ι}
    {sid : String}
    {pc pc' : TaskPc}
    (hSite : st'.site = st.site)
    (hCreated : st'.created = st.created)
    (hUserid :
      ∀ sid' ≠ sid, st'.userids sid' = st.userids sid')
    (hRank :
      pc.rank ≤ pc'.rank ∧
        (5 ≤ pc.rank ↔ 5 ≤ pc'.rank) ∧
        (9 ≤ pc.rank ↔ 9 ≤ pc'.rank)) :
    Moved st st' sid pc pc' where
  created := hCreated
  rank := hRank.1
  entry _ _ := by rw [hSite]
  userid := hUserid
  session _ _ := by rw [hSite]
  recorded _ _ _ _ hMem := by
    rw [hSite] at hMem
    exact .inl hMem
  others _ _ _ := by rw [hSite]
  count := by
    rw [hSite]
    simp only [hRank.2.1]
  balance := by
    rw [hSite]
    simp only [hRank.2.2]

/- The tasks that have come so far when one has moved. -/
theorem reached_moved
    (t : Nat)
    (before after : List LoginTask)
    (task task' : LoginTask) :
    reached t (before ++ task' :: after) +
        (if t ≤ task.pc.rank then 1 else 0) =
      reached t (before ++ task :: after) +
        (if t ≤ task'.pc.rank then 1 else 0) := by
  simp only [reached, List.countP_append, List.countP_cons,
    decide_eq_true_eq]
  omega

namespace Moved

variable {st st' : ClientLogin ι}
variable {before after : List LoginTask}
variable {sid from_ : String}
variable {pc pc' : TaskPc}

/- The counter and the sessions differ as they should. -/
theorem counted
    (hMoved : Moved st st' sid pc pc')
    (hTasks : st.tasks = before ++ ⟨from_, pc⟩ :: after)
    (hTasks' : st'.tasks = before ++ ⟨from_, pc'⟩ :: after)
    (hCounted :
      st.site.node.wsNode.balance +
          Int32.ofNat (reached 5 st.tasks) =
        Int32.ofNat
            (SessionMap.localCount st.site.node.sessionMap) +
          Int32.ofNat (reached 9 st.tasks)) :
    st'.site.node.wsNode.balance +
        Int32.ofNat (reached 5 st'.tasks) =
      Int32.ofNat
          (SessionMap.localCount st'.site.node.sessionMap) +
        Int32.ofNat (reached 9 st'.tasks) := by
  have hCount := congrArg Int32.ofNat hMoved.count
  have hBalance := hMoved.balance
  have hStored := congrArg Int32.ofNat
    (reached_moved 5 before after ⟨from_, pc⟩ ⟨from_, pc'⟩)
  have hDone := congrArg Int32.ofNat
    (reached_moved 9 before after ⟨from_, pc⟩ ⟨from_, pc'⟩)
  rw [hTasks] at hCounted
  rw [hTasks']
  -- all of it is linear in what the numbers are in 32 bits
  simp only [Int32.ofNat_add] at hCount hStored hDone
  grind

/- What a task has read is still what it was. -/
theorem readOf
    (hMoved : Moved st st' sid pc pc')
    (hSelf : (sid, ⟨from_, pc⟩) ∈ logins st)
    (hLogins :
      ∀ login ∈ logins st',
        login = (sid, ⟨from_, pc'⟩) ∨ login ∈ logins st)
    {reader : String}
    {u : UserCache}
    (hRead : ReadOf st reader u) :
    ReadOf st' reader u := by
  constructor
  case user => exact hRead.user
  case own =>
    intro login hMem hListed
    rcases hLogins login hMem with rfl | hOld
    · rcases hRead.own _ hSelf hListed with ⟨hFrom, hLate⟩
      exact ⟨hFrom, hLate.trans hMoved.rank⟩
    · exact hRead.own login hOld hListed
  case others =>
    intro other hMem
    rw [hMoved.created] at hMem
    rw [hMoved.others reader other hMem]
    exact hRead.others other hMem

end Moved

/- A task that has started is not queued any more. -/
theorem taskStep_ne_queued
    (clock : Int → String)
    (from_ : String)
    (st : ClientLogin ι)
    (pc : TaskPc) :
    (taskStep clock from_ st pc).2 ≠ .queued := by
  cases pc with
  | queued =>
      cases hSession : st.localSession <;>
        simp [taskStep, hSession]
  | _ => simp [taskStep]

theorem taskRun_ne_queued
    (clock : Int → String)
    (from_ : String)
    (n : Nat)
    (st : ClientLogin ι)
    (pc : TaskPc) :
    (taskRun clock from_ (n + 1) st pc).2 ≠ .queued := by
  unfold taskRun
  rw [Function.iterate_succ_apply']
  exact taskStep_ne_queued clock from_ _ _

namespace PairInv

variable {st st' : ClientLogin ι}
variable {before after : List LoginTask}
variable {sid from_ : String}
variable {pc pc' : TaskPc}

/- The invariant is kept by a step that keeps its task's. -/
theorem moved
    (hInv : PairInv st)
    (hTasks : st.tasks = before ++ ⟨from_, pc⟩ :: after)
    (hTasks' : st'.tasks = before ++ ⟨from_, pc'⟩ :: after)
    (hAt :
      (logins st)[before.length]? = some (sid, ⟨from_, pc⟩))
    (hMoved : Moved st st' sid pc pc')
    (hTrace :
      Trace st'.site st'.userids sid from_ pc'.rank)
    (hOwn : pc'.Own sid from_)
    (hRead :
      ∀ s uid read, pc' = .fetched s uid read →
        ReadOf st from_ (read.getD (UserCache.new uid))) :
    PairInv st' := by
  rcases hInv.logins_moved hTasks with
    ⟨sid', hAt', hSplit⟩
  rw [hAt] at hAt'
  obtain rfl : sid = sid' := by
    simpa using hAt'
  have hLogins :
      ∀ login, login ∈ logins st' ↔
        login = (sid, ⟨from_, pc'⟩) ∨
          (login ∈ logins st ∧ login.1 ≠ sid) := by
    intro login
    rw [logins, hMoved.created, hTasks']
    exact hSplit ⟨from_, pc'⟩ login
  have hSelf : (sid, ⟨from_, pc⟩) ∈ logins st :=
    List.mem_of_getElem? hAt
  have hReadOf :
      ∀ from' u, ReadOf st from' u → ReadOf st' from' u :=
    fun _ _ => hMoved.readOf hSelf fun login hMem =>
      ((hLogins login).mp hMem).imp_right And.left
  constructor
  case length =>
    rw [hTasks', hMoved.created, ← hInv.length, hTasks]
    simp
  case nodup =>
    rw [hMoved.created]
    exact hInv.nodup
  case traces =>
    intro login hMem
    rcases (hLogins login).mp hMem with rfl | ⟨hOld, hNe⟩
    · exact hTrace
    · exact (hInv.traces login hOld).frame
        (hMoved.entry _ hNe) (hMoved.userid _ hNe)
        (hMoved.session _ hNe)
        (hMoved.recorded login hOld hNe)
  case own =>
    intro login hMem
    rcases (hLogins login).mp hMem with rfl | ⟨hOld, _⟩
    · exact hOwn
    · exact hInv.own login hOld
  case fetched =>
    intro login hMem s uid read hPc
    rcases (hLogins login).mp hMem with rfl | ⟨hOld, _⟩
    · exact hReadOf _ _ (hRead s uid read hPc)
    · exact hReadOf _ _
        (hInv.fetched login hOld s uid read hPc)
  case counted =>
    exact hMoved.counted hTasks hTasks' hInv.counted

/- The task names its session, which no map holds yet. -/
theorem setUserid
    (hInv : PairInv st)
    (hTasks :
      st.tasks = before ++ ⟨from_, .captured sid⟩ :: after)
    (hAt :
      (logins st)[before.length]? =
        some (sid, ⟨from_, .captured sid⟩)) :
    PairInv
      { st.setUserid sid from_ with
        tasks := before ++ ⟨from_, .named sid⟩ :: after } := by
  have hTrace := hInv.traces _ (List.mem_of_getElem? hAt)
  have hAbsent :
      st.site.node.sessionMap.lookup sid = none :=
    hTrace.entry (by simp [TaskPc.rank])
  have hSite : (st.setUserid sid from_).site = st.site := by
    simp [ClientLogin.setUserid, SessionMap.setUserid,
      hAbsent]
  apply hInv.moved hTasks rfl hAt
  · refine Moved.keep hSite ?_ ?_ ?_
    · rfl
    · exact fun _ hNe => Function.update_of_ne hNe _ _
    · simp [TaskPc.rank]
  · change Trace (st.setUserid sid from_).site _ _ _ _
    rw [hSite]
    constructor
    case entry => exact fun _ => hAbsent
    case userid =>
      exact fun _ => Function.update_self _ _ _
    case session => simp [TaskPc.rank]
    case recorded =>
      intro u hMem
      have hLate := (hTrace.recorded u hMem).2
      simp [TaskPc.rank] at hLate
  · rfl
  · simp

/- The task puts its session in the map. -/
theorem putLocal
    (hInv : PairInv st)
    {uid : Option String}
    (hTasks :
      st.tasks =
        before ++ ⟨from_, .adding sid uid⟩ :: after)
    (hAt :
      (logins st)[before.length]? =
        some (sid, ⟨from_, .adding sid uid⟩)) :
    PairInv
      { st.setSite (SessionManager.putLocal st.site
          (st.session sid)) with
        tasks :=
          before ++ ⟨from_, .stored sid uid⟩ :: after } := by
  have hSelf := List.mem_of_getElem? hAt
  have hTrace := hInv.traces _ hSelf
  have hAbsent :
      st.site.node.sessionMap.lookup sid = none :=
    hTrace.entry (by simp [TaskPc.rank])
  apply hInv.moved hTasks rfl hAt
  · constructor
    case created => rfl
    case rank => simp [TaskPc.rank]
    case entry =>
      exact fun _ hNe => AList.lookup_insert_ne hNe
    case count =>
      change SessionMap.localCount
        (st.site.node.sessionMap.insert sid
          (.localSession (st.session sid))) + _ = _
      rw [SessionMap.localCount_insert _ _ _ hAbsent]
      simp [TaskPc.rank, ServerSession.isLocal]
    case balance => simp [TaskPc.rank, setSite,
      SessionManager.putLocal]
    case userid => exact fun _ _ => rfl
    case session => exact fun _ _ => rfl
    case recorded => exact fun _ _ _ _ hMem => .inl hMem
    case others => exact fun _ _ _ => Iff.rfl
  · constructor
    case entry => simp [TaskPc.rank]
    case userid =>
      exact fun _ => hTrace.userid (by simp [TaskPc.rank])
    case session => simp [TaskPc.rank]
    case recorded =>
      intro u hMem
      have hLate := (hTrace.recorded u hMem).2
      simp [TaskPc.rank] at hLate
  · exact hInv.own _ hSelf
  · simp

/- The task writes the record of its session. -/
theorem saveSession
    (hInv : PairInv st)
    {uid : Option String}
    (hTasks :
      st.tasks =
        before ++ ⟨from_, .stored sid uid⟩ :: after)
    (hAt :
      (logins st)[before.length]? =
        some (sid, ⟨from_, .stored sid uid⟩)) :
    PairInv
      { st.setSite (SessionManager.saveSession st.site
          ⟨st.channel, uid, sid⟩) with
        tasks :=
          before ++ ⟨from_, .saved sid uid⟩ :: after } := by
  have hSelf := List.mem_of_getElem? hAt
  have hTrace := hInv.traces _ hSelf
  have hOwn : sid = sid ∧ uid = some from_ :=
    hInv.own _ hSelf
  apply hInv.moved hTasks rfl hAt
  · constructor
    case created => rfl
    case rank => simp [TaskPc.rank]
    case session =>
      intro sid' hNe
      exact (SessionCacheImpl.get_save _ _ _).trans
        (if_neg hNe)
    case count => simp [TaskPc.rank, setSite,
      SessionManager.saveSession]
    case balance => simp [TaskPc.rank, setSite,
      SessionManager.saveSession]
    case entry => exact fun _ _ => rfl
    case userid => exact fun _ _ => rfl
    case recorded => exact fun _ _ _ _ hMem => .inl hMem
    case others => exact fun _ _ _ => Iff.rfl
  · constructor
    case entry => simp [TaskPc.rank]
    case userid =>
      exact fun _ => hTrace.userid (by simp [TaskPc.rank])
    case session =>
      intro _
      refine ⟨⟨uid, sid, st.site.node.wsNode⟩, ?_, hOwn.2⟩
      exact (SessionCacheImpl.get_save _ _ _).trans
        (if_pos rfl)
    case recorded =>
      intro u hMem
      have hLate := (hTrace.recorded u hMem).2
      simp [TaskPc.rank] at hLate
  · exact hOwn
  · simp

/- What a task reads as its user's record. -/
theorem readOf
    (hInv : PairInv st)
    (from_ : String) :
    ReadOf st from_
      ((UserCacheImpl.get st.site.redis (some from_)).getD
        (UserCache.new (some from_))) := by
  have hMap := UserCacheImpl.getOrNew_map st.site.redis
    (some from_)
  unfold UserCacheImpl.getOrNew at hMap
  constructor
  case user =>
    exact UserCacheImpl.userKey_getOrNew st.site.redis
      (some from_)
  case own =>
    intro login hMem hListed
    rw [hMap] at hListed
    rcases (hInv.traces login hMem).recorded from_ hListed
      with ⟨hUser, hLate⟩
    exact ⟨hUser.symm, hLate⟩
  case others =>
    intro sid _
    rw [hMap]

/- The sessions of users once a task has written its own. -/
theorem mem_saveUser
    (st : ClientLogin ι)
    {u : UserCache}
    (hUser : userKey u.userId = from_)
    (s : SessionNodeCache)
    (sid u' : String) :
    sid ∈ sids (UserCacheImpl.records
        (saveUser st.site (u.addSession s)).redis
          (some u')) ↔
      if u' = from_ then
        sid = s.sessionid ∨ sid ∈ sids u.map
      else
        sid ∈ sids (UserCacheImpl.records st.site.redis
          (some u')) := by
  unfold saveUser
  rw [UserCacheImpl.records_save]
  change sid ∈ sids (if u' = userKey u.userId then _
    else _) ↔ _
  rw [hUser]
  split_ifs
  · exact mem_sids_put u.map s sid
  · rfl

/- The task writes its user's record. -/
theorem saveUser
    (hInv : PairInv st)
    {uid : Option String}
    {read : Option UserCache}
    (hTasks :
      st.tasks =
        before ++ ⟨from_, .fetched sid uid read⟩ :: after)
    (hAt :
      (logins st)[before.length]? =
        some (sid, ⟨from_, .fetched sid uid read⟩)) :
    PairInv
      { st.setSite (saveUser st.site
          ((read.getD (UserCache.new uid)).addSession
            (st.sessionNodeCache sid uid))) with
        tasks :=
          before ++ ⟨from_, .recorded sid uid⟩ :: after } := by
  have hSelf := List.mem_of_getElem? hAt
  have hTrace := hInv.traces _ hSelf
  have hRead := hInv.fetched _ hSelf sid uid read rfl
  have hCreated : sid ∈ st.created := mem_created hSelf
  have hRecords := fun sid' u' =>
    mem_saveUser st hRead.user
      (st.sessionNodeCache sid uid) sid' u'
  apply hInv.moved hTasks rfl hAt
  · constructor
    case created => rfl
    case rank => simp [TaskPc.rank]
    case recorded =>
      intro login hMem hNe u hListed
      have hNow := (hRecords login.1 u).mp hListed
      split_ifs at hNow with hUser
      · rcases hNow with hSame | hOld
        · exact absurd hSame hNe
        · rcases hRead.own login hMem hOld with
            ⟨hFrom, hLate⟩
          exact .inr ⟨hUser.trans hFrom.symm, hLate⟩
      · exact .inl hNow
    case others =>
      intro u sid' hMem
      refine (hRecords sid' u).trans ?_
      split_ifs with hUser
      · have hNe : sid' ≠ sid := by
          rintro rfl
          exact hMem hCreated
        rw [hUser, ← hRead.others sid' hMem]
        constructor
        · rintro (hSame | hOld)
          · exact absurd hSame hNe
          · exact hOld
        · exact .inr
      · rfl
    case count => simp [TaskPc.rank, setSite,
      ClientLogin.saveUser]
    case balance => simp [TaskPc.rank, setSite,
      ClientLogin.saveUser]
    case entry => exact fun _ _ => rfl
    case userid => exact fun _ _ => rfl
    case session => exact fun _ _ => rfl
  · constructor
    case entry => simp [TaskPc.rank]
    case userid =>
      exact fun _ => hTrace.userid (by simp [TaskPc.rank])
    case session =>
      exact fun _ => hTrace.session (by simp [TaskPc.rank])
    case recorded =>
      intro u hListed
      have hNow := (hRecords sid u).mp hListed
      split_ifs at hNow with hUser
      · exact ⟨hUser, le_refl 8⟩
      · have hLate := (hTrace.recorded u hNow).2
        simp [TaskPc.rank] at hLate
  · exact hInv.own _ hSelf
  · simp

/- The task counts its session. -/
theorem incBalance
    (hInv : PairInv st)
    {uid : Option String}
    (hTasks :
      st.tasks =
        before ++ ⟨from_, .recorded sid uid⟩ :: after)
    (hAt :
      (logins st)[before.length]? =
        some (sid, ⟨from_, .recorded sid uid⟩)) :
    PairInv
      { st.setSite (SessionManager.incBalance st.site) with
        tasks :=
          before ++ ⟨from_, .counted sid uid⟩ :: after } := by
  have hSelf := List.mem_of_getElem? hAt
  have hTrace := hInv.traces _ hSelf
  have hNext :
      Trace st.site st.userids sid from_
        (TaskPc.counted sid uid).rank :=
    hTrace.later (by simp [TaskPc.rank])
  apply hInv.moved hTasks rfl hAt
  · constructor
    case created => rfl
    case rank => simp [TaskPc.rank]
    case count => simp [TaskPc.rank, setSite,
      SessionManager.incBalance]
    case balance => simp [TaskPc.rank, setSite,
      SessionManager.incBalance]
    case entry => exact fun _ _ => rfl
    case userid => exact fun _ _ => rfl
    case session => exact fun _ _ => rfl
    case recorded => exact fun _ _ _ _ hMem => .inl hMem
    case others => exact fun _ _ _ => Iff.rfl
  · exact ⟨hNext.entry, hNext.userid, hNext.session,
      hNext.recorded⟩
  · exact hInv.own _ hSelf
  · simp

/- A step of the task that writes nothing. -/
theorem taskRead
    (hInv : PairInv st)
    (pc' : TaskPc)
    (hTasks : st.tasks = before ++ ⟨from_, pc⟩ :: after)
    (hAt :
      (logins st)[before.length]? = some (sid, ⟨from_, pc⟩))
    (sessionKey : Option String)
    (connectHandler : Bool)
    (hNext :
      pc.rank ≤ pc'.rank ∧
        (2 ≤ pc'.rank → 2 ≤ pc.rank) ∧
        (5 ≤ pc.rank ↔ 5 ≤ pc'.rank) ∧
        (6 ≤ pc'.rank → 6 ≤ pc.rank) ∧
        (9 ≤ pc.rank ↔ 9 ≤ pc'.rank))
    (hOwn : pc'.Own sid from_)
    (hRead :
      ∀ s uid read, pc' = .fetched s uid read →
        ReadOf st from_ (read.getD (UserCache.new uid))) :
    PairInv
      { st with
        sessionKey := sessionKey
        connectHandler := connectHandler
        tasks := before ++ ⟨from_, pc'⟩ :: after } := by
  rcases hNext with ⟨hRank, hNamed, hStored, hSaved, hDone⟩
  have hTrace := hInv.traces _ (List.mem_of_getElem? hAt)
  apply hInv.moved hTasks rfl hAt
  · exact .keep rfl rfl (fun _ _ => rfl)
      ⟨hRank, hStored, hDone⟩
  · exact hTrace.later ⟨hRank, hNamed, hSaved⟩
  · exact hOwn
  · exact hRead

/-
  A step of a task keeps the invariant, if the task starts
  with the session of its own message.
-/
theorem task_step
    (clock : Int → String)
    (hInv : PairInv st)
    (hTasks : st.tasks = before ++ ⟨from_, pc⟩ :: after)
    (hFinds : pc = .queued → Finds st before.length) :
    PairInv
      { (taskStep clock from_ st pc).1 with
        tasks := before ++
          ⟨from_, (taskStep clock from_ st pc).2⟩ ::
            after } := by
  rcases hInv.logins_moved hTasks with ⟨sid, hAt, _⟩
  have hSelf := List.mem_of_getElem? hAt
  have hOwn : pc.Own sid from_ := hInv.own _ hSelf
  have hTrace := hInv.traces _ hSelf
  have hRead := fun pc' => hInv.taskRead pc' hTasks hAt
    st.sessionKey st.connectHandler
  cases pc with
  | queued =>
      have hSession := hFinds rfl _ hAt rfl
      have hStep :
          taskStep clock from_ st .queued =
            (st, .captured sid) := by
        simp only [taskStep, hSession]
      rw [hStep]
      exact hRead (.captured sid) (by simp [TaskPc.rank]) rfl
        (by simp)
  | captured s =>
      have hSame : s = sid := hOwn
      subst hSame
      exact hInv.setUserid hTasks hAt
  | named s =>
      have hSame : s = sid := hOwn
      subst hSame
      exact hInv.taskRead (.bound s) hTasks hAt
        (some s) st.connectHandler (by simp [TaskPc.rank])
        rfl (by simp)
  | bound s =>
      have hSame : s = sid := hOwn
      subst hSame
      have hUserid : st.userids s = some from_ :=
        hTrace.userid (by simp [TaskPc.rank])
      exact hRead (.adding s _) (by simp [TaskPc.rank])
        ⟨rfl, hUserid⟩ (by simp)
  | adding s uid =>
      have hSame : s = sid := hOwn.1
      subst hSame
      exact hInv.putLocal hTasks hAt
  | stored s uid =>
      have hSame : s = sid := hOwn.1
      subst hSame
      exact hInv.saveSession hTasks hAt
  | saved s uid =>
      rcases hOwn with ⟨rfl, rfl⟩
      apply hRead (.fetched s _ _) (by simp [TaskPc.rank])
        ⟨rfl, rfl⟩
      intro s' uid' read hPc
      cases hPc
      exact hInv.readOf from_
  | fetched s uid read =>
      have hSame : s = sid := hOwn.1
      subst hSame
      exact hInv.saveUser hTasks hAt
  | recorded s uid =>
      have hSame : s = sid := hOwn.1
      subst hSame
      exact hInv.incBalance hTasks hAt
  | counted s uid =>
      exact hRead (.answered _) (by simp [TaskPc.rank])
        trivial (by simp)
  | answered connected =>
      exact hInv.taskRead .returned hTasks hAt
        st.sessionKey _ (by simp [TaskPc.rank]) trivial
        (by simp)
  | returned =>
      exact hRead .returned (by simp [TaskPc.rank]) trivial
        (by simp)

/- Steps of a run keep the invariant. -/
theorem step
    (clock : Int → String)
    (hInv : PairInv st)
    (hStep : PairedStep clock st st') :
    PairInv st' := by
  rcases hStep with ⟨hOnline | hTask, hFinds, -⟩
  · cases hOnline with
    | online _ _ hFresh => exact hInv.online _ hFresh
  · cases hTask with
    | @task before task after hTasks =>
        rcases task with ⟨from_, pc⟩
        apply hInv.task_step clock hTasks
        intro hPc
        apply hFinds
        subst hPc
        have hMoves :=
          taskStep_ne_queued clock from_ st .queued
        simp only [hTasks, ne_eq,
          List.getElem?_append_right (le_refl _),
          Nat.sub_self, List.getElem?_cons_zero,
          Option.some.injEq, LoginTask.mk.injEq, true_and]
        exact fun hSame => hMoves hSame.symm

/- Between logins the records name the right users. -/
theorem ownUser
    (hInv : PairInv st)
    (hFits :
      SessionMap.localCount st.site.node.sessionMap <
        2 ^ 31)
    (hIdle : Idle st) :
    OwnUser st := by
  constructor
  case recorded =>
    intro login hMem u hListed
    have hTrace := hInv.traces login hMem
    rcases hTrace.recorded u hListed with ⟨rfl, hLate⟩
    exact ⟨rfl, hTrace.userid (by omega),
      hTrace.session (by omega)⟩
  case balanced =>
    have hSame : reached 5 st.tasks = reached 9 st.tasks := by
      apply List.countP_congr
      intro task hMem
      rcases hIdle task hMem with hPc | hPc <;>
        simp [hPc, TaskPc.rank]
    have hSum := hInv.counted
    rw [hSame, Int32.add_left_inj] at hSum
    have hCounted : st.site.node.Counted := hSum
    exact hCounted.balanced_iff.mpr hFits

end PairInv

/- A step puts at most one session in the map. -/
theorem localCount_runStep
    {clock : Int → String}
    {st st' : ClientLogin ι}
    (hStep : RunStep clock st st') :
    SessionMap.localCount st'.site.node.sessionMap ≤
      SessionMap.localCount st.site.node.sessionMap + 1 := by
  rcases hStep with hOnline | hTask
  · cases hOnline
    exact Nat.le_succ _
  · cases hTask with
    | @task before task after _ =>
        cases task.pc with
        | queued =>
            cases hSession : st.localSession <;>
              simp [taskStep, hSession]
        | captured sid =>
            simp only [taskStep, setUserid,
              SessionMap.setUserid,
              Node.setSessionMap_sessionMap]
            split
            · exact SessionMap.localCount_insert_le _ _ _
            · exact Nat.le_succ _
        | adding sid uid =>
            exact SessionMap.localCount_insert_le _ _ _
        | _ => exact Nat.le_succ _

/-
  In every run whose tasks start with the sessions of their
  own messages, on a node that is never full, sessions are
  recorded under their own users and counted whenever no
  login is half done.
-/
theorem ownUser_of_paired
    (clock : Int → String)
    (st : ClientLogin ι)
    (hReach :
      Transition.Reach LoginStart (PairedStep clock) st)
    (hIdle : Idle st) :
    OwnUser st := by
  have hInv :
      PairInv st ∧
        SessionMap.localCount st.site.node.sessionMap <
          2 ^ 31 := by
    apply hReach.invariant
    · intro st hStart
      exact ⟨.start hStart,
        hStart.balanced.counted.balanced_iff.mp
          hStart.balanced⟩
    · rintro st st' ⟨hInv, -⟩ hStep
      exact ⟨hInv.step clock hStep,
        (localCount_runStep hStep.run).trans_lt hStep.room⟩
  exact hInv.1.ownUser hInv.2 hIdle

theorem connected_loginStart :
    LoginStart connected :=
  ⟨rfl, rfl, rfl, rfl⟩

/- Nothing but the start of a task looks at the handler. -/
theorem pairedStep_of_task
    (clock : Int → String)
    {st st' : ClientLogin ι}
    (hStep : Step clock st .task st')
    (hFinds :
      ∀ login ∈ logins st, login.2.pc = .queued →
        st.localSession = some login.1)
    (hRoom : st.HasRoom) :
    PairedStep clock st st' := by
  refine ⟨.inr hStep, ?_, hRoom⟩
  intro k _ login hAt
  exact hFinds login (List.mem_of_getElem? hAt)

/- A login that runs alone is recorded under its user. -/
theorem ownUser_loggedIn :
    Idle loggedIn ∧ OwnUser loggedIn := by
  have hOnline :
      PairedStep (fun _ => "") connected online := by
    refine ⟨.inl (step_online _), ?_, by decide⟩
    intro k _ login hAt
    simp [logins, connected] at hAt
  have hRoom :
      ∀ k < 11,
        (taskRunAt (fun _ => "") [] [] "u" online .queued
          k).HasRoom := by
    decide
  have hReach :
      Transition.Reach LoginStart (PairedStep fun _ => "")
        (taskRunAt (fun _ => "") [] [] "u" online .queued
          11) := by
    apply reach_taskRun
    · intro k hLt st' hStep
      apply pairedStep_of_task _ hStep ?_ (hRoom k hLt)
      intro login hMem hPc
      cases k with
      | zero =>
          have hFirst : login = ("s", ⟨"u", .queued⟩) :=
            List.mem_singleton.mp hMem
          rw [hFirst]
          rfl
      | succ k =>
          have hTask := (List.of_mem_zip
            (a := login.1) (b := login.2) hMem).2
          have hSame := List.mem_singleton.mp hTask
          rw [hSame] at hPc
          exact absurd hPc (taskRun_ne_queued _ "u" k _ _)
    · exact (Transition.Reach.init connected_loginStart).step
        hOnline
  have hIdle : Idle loggedIn := by
    unfold Idle
    decide
  exact ⟨hIdle, ownUser_of_paired _ _ hReach hIdle⟩

/- The channel when two messages have been read. -/
def twoOnline : ClientLogin Unit :=
  { online with
    localSession := some "t"
    userids := Function.update online.userids "t" none
    tasks := online.tasks ++ [⟨"v", .queued⟩]
    created := ["t", "s"] }

/- Both tasks have run, with the session made last. -/
def mixedUp : ClientLogin Unit :=
  taskRunAt (fun _ => "") [⟨"u", .returned⟩] [] "v"
    (taskRunAt (fun _ => "") [] [⟨"v", .queued⟩] "u"
      twoOnline .queued 11)
    .queued 11

/- Two messages read before the first task runs. -/
theorem mixedUp_not_ownUser :
    ¬ ∀ st : ClientLogin Unit,
      Transition.Reach LoginStart (RunStep fun _ => "") st →
      Idle st →
      OwnUser st := by
  intro hAll
  have hOnline :
      Transition.Reach LoginStart (RunStep fun _ => "")
        online :=
    (Transition.Reach.init connected_loginStart).step
      (.inl (step_online _))
  have hTwo :
      Transition.Reach LoginStart (RunStep fun _ => "")
        twoOnline := by
    apply hOnline.step
    refine .inl (.online rfl rfl ?_)
    exact ⟨by decide, rfl, rfl,
      by simp [online, connected, UserCacheImpl.records,
        UserCacheImpl.get, Redis.empty, sids]⟩
  have hFirst :
      Transition.Reach LoginStart (RunStep fun _ => "")
        (taskRunAt (fun _ => "") [] [⟨"v", .queued⟩] "u"
          twoOnline .queued 11) :=
    reach_taskRun _ _ _ 11 (fun _ _ _ hStep => .inr hStep)
      hTwo
  have hReach :
      Transition.Reach LoginStart (RunStep fun _ => "")
        mixedUp :=
    reach_taskRun _ _ _ 11 (fun _ _ _ hStep => .inr hStep)
      hFirst
  have hOwn := hAll mixedUp hReach
    (by unfold Idle; decide)
  have hUser := (hOwn.recorded ("t", ⟨"v", .returned⟩)
    (by decide) "u" (by decide)).1
  revert hUser
  decide

end ClientLogin

end NettyCluster
