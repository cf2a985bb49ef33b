import NettyCluster.Session.Traffic

/-
  Data goes to its receiver only.

  Whatever is under way in the cluster, data is only written
  to channels that asked to log in as its receiver, and it
  is data that some client sent. This needs no order of the
  steps: what is stored, kept and read about sessions always
  comes from what has happened, and what has happened only
  grows.

  Main declarations:
    * `Ledger`, `Ledger.Listed`
    * `Traffic.Holds`, `Traffic.Inv`
    * `Traffic.confined`
    * `Traffic.sessions_at_home`
-/

------------------------------------------------------------
-- Who Is Who
------------------------------------------------------------

namespace NettyCluster

open MessageInfo

variable {ι : Type}

/-
  What has happened so far: the sessions made for each
  channel, the users it asked to log in as, the node it is
  on, and the data that was read from clients.
-/
structure Ledger (ι : Type) where
  created : Nat → String → Prop
  online : Nat → String → Prop
  home : Nat → ι
  received : Model → Prop

namespace Ledger

/- A session whose channel asked to log in as the user. -/
def Listed
    (L : Ledger ι)
    (u sid : String) : Prop :=
  ∃ k, L.created k sid ∧ L.online k u

/- Every session was made for one channel only. -/
def Unique (L : Ledger ι) : Prop :=
  ∀ k k' sid, L.created k sid → L.created k' sid → k = k'

/- More has happened, and every channel is where it was. -/
structure Le (L L' : Ledger ι) : Prop where
  created : ∀ k sid, L.created k sid → L'.created k sid
  online : ∀ k u, L.online k u → L'.online k u
  home : L'.home = L.home
  received : ∀ msg, L.received msg → L'.received msg

theorem Listed.mono
    {L L' : Ledger ι}
    (hLe : L.Le L')
    {u sid : String}
    (hListed : L.Listed u sid) :
    L'.Listed u sid := by
  rcases hListed with ⟨k, hCreated, hOnline⟩
  exact ⟨k, hLe.created k sid hCreated,
    hLe.online k u hOnline⟩

end Ledger

section Facts

variable (L : Ledger ι)

/- The sessions of a record are its user's. -/
def UserCache.Listed (u : UserCache) : Prop :=
  ∀ r ∈ u.map, L.Listed (userKey u.userId) r.sessionid

/- So are those of all records that are stored. -/
def Redis.Listed (redis : Redis) : Prop :=
  ∀ key u, redis.users key = some u → u.Listed L

/-
  A session of the node's own is kept under its id, and was
  made for its channel, which is on the node.
-/
def SessionMap.Homed
    (i : ι)
    (m : SessionMap) : Prop :=
  ∀ sid s, m.lookup sid = some (.localSession s) →
    s.sessionId = sid ∧ L.created s.channel.id sid ∧
      L.home s.channel.id = i

/- A handle to write a user's data to. -/
def ServerSession.For
    (u : String) : ServerSession → Prop
| .localSession s => L.online s.channel.id u
| .remoteSession _ => True

/- What a lookup has found is for its user. -/
def LookupPc.For
    (u : String) : LookupPc → Prop
| .called => True
| .listed rest sessions =>
    (∀ r ∈ rest, L.Listed u r.sessionid) ∧
      ∀ s ∈ sessions, s.For L u
| .absent r rest sessions =>
    L.Listed u r.sessionid ∧
      (∀ r ∈ rest, L.Listed u r.sessionid) ∧
        ∀ s ∈ sessions, s.For L u
| .returned sessions => ∀ s ∈ sessions.getD [], s.For L u

/- What is left of handling data is for its receiver. -/
def HandlingPc.For
    (u : String) : HandlingPc → Prop
| .looking pc => pc.For L u
| .writing rest => ∀ s ∈ rest, s.For L u

/- Data that is handled was read from a client. -/
structure Handling.Sound (h : Handling ι) : Prop where
  received : L.received h.msg
  pc : h.pc.For L h.msg.to_

/-
  A login task is about a session of its channel, and the
  user it has read is one the channel asked to log in as.
-/
def TaskPc.Sound
    (k : Nat)
    (userids : String → Option String) : TaskPc → Prop
| .captured sid => L.created k sid
| .named sid | .bound sid =>
    L.created k sid ∧ userids sid ≠ none
| .adding sid uid | .stored sid uid | .saved sid uid
| .recorded sid uid | .counted sid uid =>
    L.created k sid ∧ ∃ u, uid = some u ∧ L.online k u
| .fetched sid uid read =>
    (L.created k sid ∧ ∃ u, uid = some u ∧ L.online k u) ∧
      OwnRecord uid read ∧
        (read.getD (UserCache.new uid)).Listed L
| .queued | .answered _ | .returned => True

/- What a call that closes has read lists what it may. -/
def ClosePc.Sound : ClosePc → Prop
| .fetched _ uid read =>
    (read.getD (UserCache.new uid)).Listed L
| _ => True

/- The session objects of a channel. -/
structure Client.Objects
    (k : Nat)
    (localSession : Option String)
    (userids : String → Option String) : Prop where
  localSession :
    ∀ sid, localSession = some sid → L.created k sid
  userids :
    ∀ sid u, userids sid = some u → L.online k u

/- A channel, its tasks and the calls that close it. -/
structure Client.Sound
    (k : Nat)
    (c : Client ι) : Prop where
  objects : Objects L k c.localSession c.userids
  tasks :
    ∀ task ∈ c.tasks,
      L.online k task.from_ ∧
        task.pc.Sound L k c.userids
  closings : ∀ pc ∈ c.closings, pc.Sound L

end Facts

namespace Traffic

/- What has happened in a run, as its state shows it. -/
def ledger (st : Traffic ι) : Ledger ι where
  created k sid := sid ∈ (st.clients k).created
  online k u := u ∈ (st.clients k).online
  home k := (st.clients k).home
  received msg := msg ∈ st.received

/-
  The invariant: wherever something about sessions is kept
  or under way, it comes from what has happened.
-/
structure Holds
    (L : Ledger ι)
    (st : Traffic ι) : Prop where
  redis : st.cluster.redis.Listed L
  nodes :
    ∀ i, SessionMap.Homed L i (st.cluster.nodes i).sessionMap
  clients : ∀ k, (st.clients k).Sound L k
  handlings : ∀ h ∈ st.handlings, h.Sound L
  inFlight : ∀ packet ∈ st.inFlight, L.received packet.pkg
  written :
    ∀ w ∈ st.written, L.online w.1 w.2.to_ ∧ L.received w.2

structure Inv (st : Traffic ι) : Prop where
  unique : st.ledger.Unique
  holds : st.Holds st.ledger

end Traffic

end NettyCluster

------------------------------------------------------------
-- More Has Happened
------------------------------------------------------------

namespace NettyCluster

variable {ι : Type}

section Mono

variable {L L' : Ledger ι}

theorem UserCache.Listed.mono
    (hLe : L.Le L')
    {u : UserCache}
    (hListed : u.Listed L) :
    u.Listed L' :=
  fun r hMem => (hListed r hMem).mono hLe

theorem ServerSession.For.mono
    (hLe : L.Le L')
    {u : String}
    {s : ServerSession}
    (hFor : s.For L u) :
    s.For L' u := by
  cases s with
  | localSession s => exact hLe.online _ u hFor
  | remoteSession s => trivial

theorem LookupPc.For.mono
    (hLe : L.Le L')
    {u : String}
    {pc : LookupPc}
    (hFor : pc.For L u) :
    pc.For L' u := by
  cases pc with
  | called => trivial
  | listed rest sessions =>
      exact ⟨fun r hMem => (hFor.1 r hMem).mono hLe,
        fun s hMem => (hFor.2 s hMem).mono hLe⟩
  | absent r rest sessions =>
      exact ⟨hFor.1.mono hLe,
        fun r hMem => (hFor.2.1 r hMem).mono hLe,
        fun s hMem => (hFor.2.2 s hMem).mono hLe⟩
  | returned sessions =>
      exact fun s hMem => (hFor s hMem).mono hLe

theorem Handling.Sound.mono
    (hLe : L.Le L')
    {h : Handling ι}
    (hSound : h.Sound L) :
    h.Sound L' where
  received := hLe.received _ hSound.received
  pc := by
    have hFor := hSound.pc
    cases hPc : h.pc with
    | looking pc =>
        rw [hPc] at hFor
        exact LookupPc.For.mono hLe hFor
    | writing rest =>
        rw [hPc] at hFor
        exact fun s hMem => (hFor s hMem).mono hLe

theorem TaskPc.Sound.mono
    (hLe : L.Le L')
    {k : Nat}
    {userids : String → Option String}
    {pc : TaskPc}
    (hSound : pc.Sound L k userids) :
    pc.Sound L' k userids := by
  have hSession :
      ∀ sid uid,
        (L.created k sid ∧ ∃ u, uid = some u ∧ L.online k u) →
          L'.created k sid ∧
            ∃ u, uid = some u ∧ L'.online k u := by
    intro sid uid hBoth
    rcases hBoth with ⟨hCreated, u, hUid, hOnline⟩
    exact ⟨hLe.created k sid hCreated, u, hUid,
      hLe.online k u hOnline⟩
  cases pc with
  | queued | answered | returned => trivial
  | captured sid => exact hLe.created k sid hSound
  | named sid | bound sid =>
      exact ⟨hLe.created k sid hSound.1, hSound.2⟩
  | adding sid uid | stored sid uid | saved sid uid
  | recorded sid uid | counted sid uid =>
      exact hSession sid uid hSound
  | fetched sid uid read =>
      exact ⟨hSession sid uid hSound.1, hSound.2.1,
        hSound.2.2.mono hLe⟩

theorem ClosePc.Sound.mono
    (hLe : L.Le L')
    {pc : ClosePc}
    (hSound : pc.Sound L) :
    pc.Sound L' := by
  cases pc with
  | fetched sid uid read =>
      exact UserCache.Listed.mono hLe hSound
  | active | bound | found | removing | unrecorded
  | deleted | erased | closed => trivial

theorem Client.Sound.mono
    (hLe : L.Le L')
    {k : Nat}
    {c : Client ι}
    (hSound : c.Sound L k) :
    c.Sound L' k where
  objects :=
    ⟨fun sid hLocal => hLe.created k sid
        (hSound.objects.localSession sid hLocal),
      fun sid u hUser => hLe.online k u
        (hSound.objects.userids sid u hUser)⟩
  tasks task hMem :=
    ⟨hLe.online k _ (hSound.tasks task hMem).1,
      (hSound.tasks task hMem).2.mono hLe⟩
  closings pc hMem := (hSound.closings pc hMem).mono hLe

/- What is kept stays true when more happens. -/
theorem Traffic.Holds.mono
    (hLe : L.Le L')
    {st : Traffic ι}
    (hHolds : st.Holds L) :
    st.Holds L' where
  redis key u hUser := (hHolds.redis key u hUser).mono hLe
  nodes i sid s hEntry := by
    rcases hHolds.nodes i sid s hEntry with
      ⟨hSid, hCreated, hHome⟩
    exact ⟨hSid, hLe.created _ sid hCreated,
      by rw [hLe.home, hHome]⟩
  clients k := (hHolds.clients k).mono hLe
  handlings h hMem := (hHolds.handlings h hMem).mono hLe
  inFlight packet hMem :=
    hLe.received _ (hHolds.inFlight packet hMem)
  written w hMem :=
    ⟨hLe.online _ _ (hHolds.written w hMem).1,
      hLe.received _ (hHolds.written w hMem).2⟩

end Mono

end NettyCluster

------------------------------------------------------------
-- What the Steps Keep
------------------------------------------------------------

namespace NettyCluster

open MessageInfo

variable {ι : Type}
variable {L : Ledger ι}

namespace Redis.Listed

variable {redis : Redis}

/- A record that lists what it may can be stored. -/
theorem save
    (hRedis : redis.Listed L)
    {u : UserCache}
    (hUser : u.Listed L) :
    (UserCacheImpl.save redis u).Listed L := by
  intro key u' hStored
  simp only [UserCacheImpl.save, Function.update_apply]
    at hStored
  split_ifs at hStored
  · rw [← Option.some.inj hStored]
    exact hUser
  · exact hRedis key u' hStored

/- What a change starts from lists what it may. -/
theorem getOrNew
    (hRedis : redis.Listed L)
    (uid : Option String) :
    ((UserCacheImpl.get redis uid).getD
      (UserCache.new uid)).Listed L := by
  cases hGet : UserCacheImpl.get redis uid with
  | none => simp [UserCache.Listed]
  | some u => exact hRedis _ u hGet

theorem expire
    (hRedis : redis.Listed L)
    (users sessions : String → Bool) :
    (redis.expire users sessions).Listed L := by
  intro key u hStored
  simp only [Redis.expire] at hStored
  split_ifs at hStored
  exact hRedis key u hStored

end Redis.Listed

namespace UserCache.Listed

variable {u : UserCache}

/- A session of the user is added. -/
theorem addSession
    (hUser : u.Listed L)
    {s : SessionNodeCache}
    (hSession : L.Listed (userKey u.userId) s.sessionid) :
    (u.addSession s).Listed L := by
  intro r hMem
  rcases (UserCache.mem_addSession u s r).mp hMem with
    rfl | ⟨hOld, _⟩
  · exact hSession
  · exact hUser r hOld

theorem removeSession
    (hUser : u.Listed L)
    (sid : String) :
    (u.removeSession sid).Listed L := by
  intro r hMem
  exact hUser r
    ((UserCache.mem_removeSession u sid r).mp hMem).1

end UserCache.Listed

namespace SessionMap.Homed

variable {i : ι}
variable {m : SessionMap}

/- A session of the node's own is put. -/
theorem insert_local
    (hMap : SessionMap.Homed L i m)
    {s : LocalSession}
    (hCreated : L.created s.channel.id s.sessionId)
    (hHome : L.home s.channel.id = i) :
    SessionMap.Homed L i
      (m.insert s.sessionId (.localSession s)) := by
  intro sid t hEntry
  by_cases hSame : sid = s.sessionId
  · subst hSame
    rw [AList.lookup_insert] at hEntry
    cases hEntry
    exact ⟨rfl, hCreated, hHome⟩
  · rw [AList.lookup_insert_ne hSame] at hEntry
    exact hMap sid t hEntry

/- A record of another node's session is put. -/
theorem insert_remote
    (hMap : SessionMap.Homed L i m)
    (sid : String)
    (r : RemoteSession) :
    SessionMap.Homed L i
      (m.insert sid (.remoteSession r)) := by
  intro sid' t hEntry
  by_cases hSame : sid' = sid
  · subst hSame
    rw [AList.lookup_insert] at hEntry
    cases hEntry
  · rw [AList.lookup_insert_ne hSame] at hEntry
    exact hMap sid' t hEntry

theorem erase
    (hMap : SessionMap.Homed L i m)
    (sid : String) :
    SessionMap.Homed L i (m.erase sid) := by
  intro sid' t hEntry
  by_cases hSame : sid' = sid
  · subst hSame
    simp at hEntry
  · rw [AList.lookup_erase_ne hSame] at hEntry
    exact hMap sid' t hEntry

/- A session gets a user and stays where it is. -/
theorem setUserid
    (hMap : SessionMap.Homed L i m)
    (sid userid : String) :
    SessionMap.Homed L i
      (SessionMap.setUserid m sid userid) := by
  unfold SessionMap.setUserid
  split
  case h_1 s hEntry =>
      rcases hMap sid s hEntry with ⟨hSid, hCreated, hHome⟩
      subst hSid
      exact hMap.insert_local
        (s := { s with userid := some userid }) hCreated
        hHome
  case h_2 => exact hMap

end SessionMap.Homed

namespace Client.Objects

variable {k : Nat}
variable {localSession : Option String}
variable {userids : String → Option String}

/- A session object gets a user its channel asked for. -/
theorem setUserid
    (hObjects : Client.Objects L k localSession userids)
    {from_ : String}
    (hFrom : L.online k from_)
    (sid : String) :
    Client.Objects L k localSession
      (Function.update userids sid (some from_)) where
  localSession := hObjects.localSession
  userids sid' u hUser := by
    rw [Function.update_apply] at hUser
    split_ifs at hUser
    · cases hUser
      exact hFrom
    · exact hObjects.userids sid' u hUser

end Client.Objects

/- What a step of a channel's login may rely on. -/
structure ClientLogin.Kept
    (L : Ledger ι)
    (k : Nat)
    (login : ClientLogin ι) : Prop where
  channel : login.channel.id = k
  redis : login.site.redis.Listed L
  sessionMap :
    SessionMap.Homed L (L.home k) login.site.node.sessionMap
  objects :
    Client.Objects L k login.localSession login.userids

namespace ClientLogin

variable {k : Nat}
variable {login : ClientLogin ι}

/- Users of session objects are set, and never cleared. -/
theorem taskStep_userids
    (login : ClientLogin ι)
    (clock : Int → String)
    (from_ : String)
    (pc : TaskPc)
    {sid : String}
    (hUser : login.userids sid ≠ none) :
    (taskStep clock from_ login pc).1.userids sid ≠ none := by
  cases pc with
  | captured s =>
      simp only [taskStep, setUserid, Function.update_apply]
      split_ifs
      · simp
      · exact hUser
  | queued =>
      simp only [taskStep]
      split <;> exact hUser
  | _ => exact hUser

/- A login task keeps to its channel. -/
theorem taskStep_kept
    (clock : Int → String)
    {from_ : String}
    {pc : TaskPc}
    (hKept : login.Kept L k)
    (hFrom : L.online k from_)
    (hPc : pc.Sound L k login.userids) :
    (taskStep clock from_ login pc).1.Kept L k ∧
      (taskStep clock from_ login pc).2.Sound L k
        (taskStep clock from_ login pc).1.userids := by
  have hObjects := hKept.objects
  cases pc with
  | queued =>
      simp only [taskStep]
      split
      case h_1 => exact ⟨hKept, trivial⟩
      case h_2 sid hLocal =>
          exact ⟨hKept, hObjects.localSession sid hLocal⟩
  | captured sid =>
      refine ⟨⟨hKept.channel, hKept.redis,
        hKept.sessionMap.setUserid sid from_,
        hObjects.setUserid hFrom sid⟩, hPc, ?_⟩
      simp [taskStep, setUserid]
  | named sid =>
      exact ⟨⟨hKept.channel, hKept.redis, hKept.sessionMap,
        hObjects⟩, hPc⟩
  | bound sid =>
      rcases Option.ne_none_iff_exists'.mp hPc.2 with
        ⟨u, hUser⟩
      exact ⟨hKept, hPc.1, u, hUser,
        hObjects.userids sid u hUser⟩
  | adding sid uid =>
      have hSession :
          L.created (login.session sid).channel.id
            (login.session sid).sessionId := by
        change L.created login.channel.id sid
        rw [hKept.channel]
        exact hPc.1
      have hHome :
          L.home (login.session sid).channel.id =
            L.home k := by
        change L.home login.channel.id = L.home k
        rw [hKept.channel]
      exact ⟨⟨hKept.channel, hKept.redis,
        hKept.sessionMap.insert_local hSession hHome,
        hObjects⟩, hPc⟩
  | stored sid uid =>
      exact ⟨⟨hKept.channel, hKept.redis, hKept.sessionMap,
        hObjects⟩, hPc⟩
  | saved sid uid =>
      exact ⟨hKept, hPc, OwnRecord.get _ uid,
        hKept.redis.getOrNew uid⟩
  | fetched sid uid read =>
      rcases hPc with
        ⟨⟨hCreated, u, rfl, hOnline⟩, hOwn, hListed⟩
      have hSession :
          L.Listed
            (userKey (read.getD
              (UserCache.new (some u))).userId) sid := by
        rw [hOwn]
        exact ⟨k, hCreated, hOnline⟩
      exact ⟨⟨hKept.channel,
        hKept.redis.save (hListed.addSession hSession),
        hKept.sessionMap, hObjects⟩,
        hCreated, u, rfl, hOnline⟩
  | recorded sid uid =>
      exact ⟨⟨hKept.channel, hKept.redis, hKept.sessionMap,
        hObjects⟩, hPc⟩
  | counted sid uid => exact ⟨hKept, trivial⟩
  | answered connected =>
      exact ⟨⟨hKept.channel, hKept.redis, hKept.sessionMap,
        hObjects⟩, trivial⟩
  | returned => exact ⟨hKept, trivial⟩

/- So does a task whose command failed. -/
theorem failed_sound
    {userids : String → Option String}
    {pc : TaskPc}
    (hPc : pc.Sound L k userids) :
    pc.failed.Sound L k userids := by
  cases pc with
  | saved sid uid =>
      exact ⟨hPc, rfl, by simp [UserCache.Listed]⟩
  | fetched sid uid read => exact hPc.1
  | _ => exact hPc

/- Closing a channel takes sessions out only. -/
theorem closeStep_kept
    {pc : ClosePc}
    (hKept : login.Kept L k)
    (hPc : pc.Sound L) :
    (closeStep login pc).1.Kept L k ∧
      (closeStep login pc).2.Sound L := by
  have hObjects := hKept.objects
  cases pc with
  | active | bound sid | found sid session =>
      simp only [closeStep]
      split <;> exact ⟨hKept, trivial⟩
  | removing sid uid =>
      exact ⟨hKept, hKept.redis.getOrNew uid⟩
  | fetched sid uid read =>
      exact ⟨⟨hKept.channel,
        hKept.redis.save
          (UserCache.Listed.removeSession hPc sid),
        hKept.sessionMap, hObjects⟩, trivial⟩
  | unrecorded sid =>
      exact ⟨⟨hKept.channel, hKept.redis, hKept.sessionMap,
        hObjects⟩, trivial⟩
  | deleted sid =>
      exact ⟨⟨hKept.channel, hKept.redis,
        hKept.sessionMap.erase sid, hObjects⟩, trivial⟩
  | erased =>
      exact ⟨⟨hKept.channel, hKept.redis, hKept.sessionMap,
        hObjects⟩, trivial⟩
  | closed => exact ⟨hKept, trivial⟩

theorem closeFailed_sound
    {pc : ClosePc}
    (hPc : pc.Sound L) :
    pc.failed.Sound L := by
  cases pc with
  | removing sid uid =>
      simp [ClosePc.failed, ClosePc.Sound, UserCache.Listed]
  | _ => trivial

end ClientLogin

end NettyCluster

------------------------------------------------------------
-- Handling Data
------------------------------------------------------------

namespace NettyCluster

open MessageInfo

variable {ι : Type}
variable {L : Ledger ι}

/-
  The node's own handle of a session that is listed for a
  user is for data of the user: sessions of two channels are
  not the same.
-/
theorem SessionMap.Homed.handle_for
    (hUnique : L.Unique)
    {i : ι}
    {m : SessionMap}
    (hMap : SessionMap.Homed L i m)
    {u sid : String}
    (hListed : L.Listed u sid)
    {session : ServerSession}
    (hEntry : m.lookup sid = some session) :
    session.For L u := by
  cases session with
  | remoteSession s => trivial
  | localSession s =>
      rcases hListed with ⟨k, hCreated, hOnline⟩
      have hOwner := (hMap sid s hEntry).2.1
      have hSame := hUnique _ _ sid hOwner hCreated
      change L.online s.channel.id u
      rw [hSame]
      exact hOnline

/- A lookup finds handles of its user only. -/
theorem LookupPc.step_for
    (hUnique : L.Unique)
    (site : Site ι)
    {i : ι}
    (hRedis : site.redis.Listed L)
    (hMap : SessionMap.Homed L i site.node.sessionMap)
    {u : String}
    {pc : LookupPc}
    (hPc : pc.For L u) :
    (LookupPc.step (some u) site pc).1.redis = site.redis ∧
      SessionMap.Homed L i
        (LookupPc.step (some u) site
          pc).1.node.sessionMap ∧
      (LookupPc.step (some u) site pc).2.For L u := by
  cases pc with
  | called =>
      simp only [LookupPc.step]
      split
      case h_1 => exact ⟨rfl, hMap, by simp [LookupPc.For]⟩
      case h_2 userCache hGet =>
        split_ifs
        · exact ⟨rfl, hMap, by simp [LookupPc.For]⟩
        · refine ⟨rfl, hMap, ?_, by simp⟩
          intro r hMem
          have hListed := hRedis _ userCache hGet r hMem
          rwa [site.redis.users_key _ _ hGet] at hListed
  | listed rest sessions =>
      cases rest with
      | nil => exact ⟨rfl, hMap, hPc.2⟩
      | cons r rest =>
          have hFirst := hPc.1 r List.mem_cons_self
          have hRest :
              ∀ r ∈ rest, L.Listed u r.sessionid :=
            fun r hMem => hPc.1 r (List.mem_cons_of_mem _ hMem)
          simp only [LookupPc.step]
          split
          case h_1 session hEntry =>
            refine ⟨rfl, hMap, hRest, ?_⟩
            intro s hMem
            rcases List.mem_append.mp hMem with hOld | hNew
            · exact hPc.2 s hOld
            · rw [List.mem_singleton.mp hNew]
              exact hMap.handle_for hUnique hFirst hEntry
          case h_2 =>
            exact ⟨rfl, hMap, hFirst, hRest, hPc.2⟩
  | absent r rest sessions =>
      refine ⟨rfl, hMap.insert_remote r.sessionid ⟨r⟩,
        hPc.2.1, ?_⟩
      intro s hMem
      rcases List.mem_append.mp hMem with hOld | hNew
      · exact hPc.2.2 s hOld
      · rw [List.mem_singleton.mp hNew]
        trivial
  | returned sessions => exact ⟨rfl, hMap, hPc⟩

theorem LookupPc.failed_for
    {u : String}
    {pc : LookupPc}
    (hPc : pc.For L u) :
    pc.failed.For L u := by
  cases pc with
  | called => simp [LookupPc.failed, LookupPc.For]
  | _ => exact hPc

/-
  Writing to a handle writes to a channel of the receiver,
  or sends the data on, or does neither.
-/
theorem ServerSession.writeAndFlush_for
    {u : String}
    {session : ServerSession}
    (hFor : session.For L u)
    (writable : Bool)
    (node : Node ι)
    (msg : Model) :
    ∀ effect ∈
        ((session.onChannel writable).writeAndFlush node
          msg).effects,
      (∀ w, effect.toClient = some w →
        L.online w.1 u ∧ w.2 = msg) ∧
      ∀ packet, effect.copy = some packet →
        packet.pkg = msg := by
  intro effect hMem
  cases session with
  | localSession s =>
      cases writable with
      | false =>
          simp [onChannel, writeAndFlush,
            LocalSession.writeAndFlush] at hMem
      | true =>
          simp only [onChannel, writeAndFlush,
            LocalSession.writeAndFlush, if_true,
            List.mem_singleton] at hMem
          subst hMem
          refine ⟨?_, by simp [Effect.copy]⟩
          intro w hWrite
          cases hWrite
          exact ⟨hFor, rfl⟩
  | remoteSession s =>
      have hSend :
          ∃ sender, effect = .send sender msg := by
        simp only [onChannel, writeAndFlush,
          RemoteSession.writeAndFlush,
          PeerSender.writeAndFlush] at hMem
        split at hMem
        · simp at hMem
        · rename_i sender _
          refine ⟨sender, ?_⟩
          split_ifs at hMem
          · exact List.mem_singleton.mp hMem
          · split at hMem <;>
              exact List.mem_singleton.mp hMem
      rcases hSend with ⟨sender, rfl⟩
      refine ⟨by simp [Effect.toClient], ?_⟩
      intro packet hCopy
      simp only [Effect.copy, Option.map_eq_some_iff] at hCopy
      rcases hCopy with ⟨j, _, rfl⟩
      rfl

end NettyCluster

------------------------------------------------------------
-- The Invariant
------------------------------------------------------------

namespace NettyCluster

open MessageInfo

variable {ι : Type}
variable {L : Ledger ι}

/- Data stays the same while it is handled. -/
theorem Handling.Sound.goOn
    {h : Handling ι}
    (hSound : h.Sound L)
    {pc : HandlingPc}
    (hPc : pc.For L h.msg.to_) :
    Handling.Sound L { h with pc := pc } where
  received := hSound.received
  pc := hPc

/- Tasks do not mind users that are set meanwhile. -/
theorem TaskPc.Sound.of_userids
    {k : Nat}
    {userids userids' : String → Option String}
    (hUsers :
      ∀ sid, L.created k sid → userids sid ≠ none →
        userids' sid ≠ none)
    {pc : TaskPc}
    (hPc : pc.Sound L k userids) :
    pc.Sound L k userids' := by
  cases pc with
  | named sid | bound sid =>
      exact ⟨hPc.1, hUsers sid hPc.1 hPc.2⟩
  | _ => exact hPc

namespace Traffic

variable [DecidableEq ι]
variable {st : Traffic ι}

namespace Holds

omit [DecidableEq ι] in
/- A channel changes, and nothing else. -/
theorem setClient
    (hHolds : st.Holds L)
    {k : Nat}
    {c : Client ι}
    (hClient : c.Sound L k) :
    (st.setClient k c).Holds L where
  redis := hHolds.redis
  nodes := hHolds.nodes
  clients k' := by
    simp only [Traffic.setClient, Function.update_apply]
    split_ifs with hSame
    · rw [hSame]
      exact hClient
    · exact hHolds.clients k'
  handlings := hHolds.handlings
  inFlight := hHolds.inFlight
  written := hHolds.written

/- A node and the records change, and nothing else. -/
theorem setSite
    (hHolds : st.Holds L)
    {i : ι}
    {site : Site ι}
    (hRedis : site.redis.Listed L)
    (hMap : SessionMap.Homed L i site.node.sessionMap) :
    Holds L { st with cluster := st.cluster.setSite i site }
    where
  redis := hRedis
  nodes j := by
    by_cases hSame : j = i
    · subst hSame
      simpa using hMap
    · simpa [hSame] using hHolds.nodes j
  clients := hHolds.clients
  handlings := hHolds.handlings
  inFlight := hHolds.inFlight
  written := hHolds.written

/- A node changes, and nothing else. -/
theorem setNode
    (hHolds : st.Holds L)
    {i : ι}
    {node : Node ι}
    (hMap : SessionMap.Homed L i node.sessionMap) :
    (st.setNode i node).Holds L :=
  hHolds.setSite hHolds.redis hMap

omit [DecidableEq ι] in
/- One more message is handled. -/
theorem handlings_concat
    (hHolds : st.Holds L)
    {h : Handling ι}
    (hSound : h.Sound L) :
    ∀ h' ∈ st.handlings ++ [h], h'.Sound L := by
  intro h' hMem
  rcases List.mem_append.mp hMem with hOld | hNew
  · exact hHolds.handlings h' hOld
  · rw [List.mem_singleton.mp hNew]
    exact hSound

omit [DecidableEq ι] in
/- Handling a message has come further. -/
theorem handlings_set
    (hHolds : st.Holds L)
    {h : Handling ι}
    (hSound : h.Sound L)
    (n : Nat) :
    ∀ h' ∈ st.handlings.set n h, h'.Sound L := by
  intro h' hMem
  rcases List.mem_or_eq_of_mem_set hMem with hOld | rfl
  · exact hHolds.handlings h' hOld
  · exact hSound

omit [DecidableEq ι] in
/- What the steps of a channel's login may rely on holds. -/
theorem kept
    (hHolds : st.Holds L)
    (k : Nat)
    (hHome : L.home k = (st.clients k).home)
    (closing : ClosePc) :
    ((st.clients k).login k
      (st.cluster.site (st.clients k).home)
      closing).Kept L k where
  channel := rfl
  redis := hHolds.redis
  sessionMap := by
    rw [hHome]
    exact hHolds.nodes _
  objects := (hHolds.clients k).objects

theorem task
    (clock : Int → String)
    (hHolds : st.Holds L)
    (k n : Nat)
    (hHome : L.home k = (st.clients k).home)
    (ok : Bool) :
    (st.task clock k n ok).Holds L := by
  have hClient := hHolds.clients k
  unfold Traffic.task
  cases hTask : (st.clients k).tasks[n]? with
  | none => simpa [hTask] using hHolds
  | some task =>
      have hSound :=
        hClient.tasks task (List.mem_of_getElem? hTask)
      cases ok with
      | false =>
          simp only [hTask, Bool.false_eq_true, if_false]
          refine hHolds.setClient
            ⟨hClient.objects, ?_, hClient.closings⟩
          intro task' hMem
          rcases List.mem_or_eq_of_mem_set hMem with
            hOld | rfl
          · exact hClient.tasks task' hOld
          · exact ⟨hSound.1,
              ClientLogin.failed_sound hSound.2⟩
      | true =>
          have hStep :=
            ClientLogin.taskStep_kept clock
              (hHolds.kept k hHome .active) hSound.1
              hSound.2
          have hUsers := fun sid =>
            @ClientLogin.taskStep_userids _
              ((st.clients k).login k
                (st.cluster.site (st.clients k).home)
                .active)
              clock task.from_ task.pc sid
          simp only [hTask, if_true]
          generalize ClientLogin.taskStep clock task.from_
            ((st.clients k).login k
              (st.cluster.site (st.clients k).home) .active)
            task.pc = next at hStep hUsers ⊢
          have hMap := hStep.1.sessionMap
          rw [hHome] at hMap
          have hSite :=
            hHolds.setSite hStep.1.redis hMap
          refine hSite.setClient
            ⟨hStep.1.objects, ?_, hClient.closings⟩
          intro task' hMem
          rcases List.mem_or_eq_of_mem_set hMem with
            hOld | rfl
          · have hBefore := hClient.tasks task' hOld
            exact ⟨hBefore.1,
              hBefore.2.of_userids fun sid _ => hUsers sid⟩
          · exact ⟨hSound.1, hStep.2⟩

theorem closing
    (hHolds : st.Holds L)
    (k n : Nat)
    (hHome : L.home k = (st.clients k).home)
    (ok : Bool) :
    (st.closing k n ok).Holds L := by
  have hClient := hHolds.clients k
  unfold Traffic.closing
  cases hClosing : (st.clients k).closings[n]? with
  | none => simpa [hClosing] using hHolds
  | some pc =>
      have hSound :=
        hClient.closings pc (List.mem_of_getElem? hClosing)
      have hSet :
          ∀ pc' : ClosePc, pc'.Sound L →
            ∀ pc'' ∈ (st.clients k).closings.set n pc',
              pc''.Sound L := by
        intro pc' hNew pc'' hMem
        rcases List.mem_or_eq_of_mem_set hMem with
          hOld | rfl
        · exact hClient.closings pc'' hOld
        · exact hNew
      cases ok with
      | false =>
          simp only [hClosing, Bool.false_eq_true, if_false]
          exact hHolds.setClient
            ⟨hClient.objects, hClient.tasks,
              hSet _ (ClientLogin.closeFailed_sound hSound)⟩
      | true =>
          have hStep :=
            ClientLogin.closeStep_kept
              (hHolds.kept k hHome pc) hSound
          simp only [hClosing, if_true]
          have hMap := hStep.1.sessionMap
          rw [hHome] at hMap
          exact (hHolds.setSite hStep.1.redis hMap).setClient
            ⟨hClient.objects, hClient.tasks,
              hSet _ hStep.2⟩

/- Handling data makes a step. -/
theorem handle
    (hUnique : L.Unique)
    (hHolds : st.Holds L)
    (n : Nat)
    (ok writable : Bool) :
    (st.handle n ok writable).Holds L := by
  unfold Traffic.handle
  cases hGet : st.handlings[n]? with
  | none => simpa [hGet] using hHolds
  | some h =>
      have hSound :=
        hHolds.handlings h (List.mem_of_getElem? hGet)
      have hFor := hSound.pc
      dsimp only
      split
      case h_1 sessions hPc =>
        rw [hPc] at hFor
        have hFound :
            HandlingPc.For L h.msg.to_
              (.writing (sessions.getD [])) :=
          hFor
        exact { hHolds with
          handlings :=
            hHolds.handlings_set (hSound.goOn hFound) n }
      case h_2 pc _ hPc =>
        rw [hPc] at hFor
        cases ok with
        | false =>
            have hFailed :
                HandlingPc.For L h.msg.to_
                  (.looking pc.failed) :=
              LookupPc.failed_for hFor
            exact { hHolds with
              handlings :=
                hHolds.handlings_set
                  (hSound.goOn hFailed) n }
        | true =>
            have hStep :=
              LookupPc.step_for hUnique
                (st.cluster.site h.node)
                hHolds.redis (hHolds.nodes h.node) hFor
            generalize LookupPc.step (some h.msg.to_)
              (st.cluster.site h.node) pc = next at hStep ⊢
            have hRedis : next.1.redis.Listed L := by
              rw [hStep.1]
              exact hHolds.redis
            have hNext :
                HandlingPc.For L h.msg.to_
                  (.looking next.2) :=
              hStep.2.2
            exact { hHolds.setSite hRedis hStep.2.1 with
              handlings :=
                hHolds.handlings_set
                  (hSound.goOn hNext) n }
      case h_3 => exact hHolds
      case h_4 session rest hPc =>
        rw [hPc] at hFor
        have hEffects :=
          ServerSession.writeAndFlush_for
            (hFor session List.mem_cons_self) writable
            (st.cluster.nodes h.node) h.msg
        generalize
          (session.onChannel writable).writeAndFlush
            (st.cluster.nodes h.node) h.msg = written
          at hEffects ⊢
        have hRest :
            HandlingPc.For L h.msg.to_
              (.writing
                (if written.thrown.isSome then []
                else rest)) := by
          intro s hMem
          split_ifs at hMem
          · cases hMem
          · exact hFor s (List.mem_cons_of_mem _ hMem)
        exact { hHolds with
          handlings :=
            hHolds.handlings_set (hSound.goOn hRest) n
          inFlight := by
            intro packet hMem
            rcases List.mem_append.mp hMem with hOld | hNew
            · exact hHolds.inFlight packet hOld
            · rcases List.mem_filterMap.mp hNew with
                ⟨effect, hIn, hCopy⟩
              rw [(hEffects effect hIn).2 packet hCopy]
              exact hSound.received
          written := by
            intro w hMem
            rcases List.mem_append.mp hMem with hOld | hNew
            · exact hHolds.written w hOld
            · rcases List.mem_filterMap.mp hNew with
                ⟨effect, hIn, hWrite⟩
              have hTo := (hEffects effect hIn).1 w hWrite
              rw [hTo.2]
              exact ⟨hTo.1, hSound.received⟩ }

end Holds

end Traffic

end NettyCluster

------------------------------------------------------------
-- Every Run
------------------------------------------------------------

namespace NettyCluster

open MessageInfo

variable {ι : Type}

namespace Traffic

variable [DecidableEq ι]
variable {st : Traffic ι}

omit [DecidableEq ι] in
/- A channel with the sessions and users it had before. -/
theorem ledger_setClient
    (st : Traffic ι)
    {k : Nat}
    {c : Client ι}
    (hHome : c.home = (st.clients k).home)
    (hCreated : c.created = (st.clients k).created)
    (hOnline : c.online = (st.clients k).online) :
    (st.setClient k c).ledger = st.ledger := by
  have hSame :
      ∀ k', ((st.setClient k c).clients k').home =
          (st.clients k').home ∧
        ((st.setClient k c).clients k').created =
          (st.clients k').created ∧
        ((st.setClient k c).clients k').online =
          (st.clients k').online := by
    intro k'
    simp only [setClient, Function.update_apply]
    split_ifs with hKey
    · subst hKey
      exact ⟨hHome, hCreated, hOnline⟩
    · exact ⟨rfl, rfl, rfl⟩
  simp only [ledger, hSame]
  rfl

/- Steps of logins make no sessions. -/
theorem ledger_task
    (clock : Int → String)
    (k n : Nat)
    (ok : Bool) :
    (st.task clock k n ok).ledger = st.ledger := by
  unfold Traffic.task
  dsimp only
  split
  · rfl
  · split
    all_goals
      refine ledger_setClient st (k := k) ?_ ?_ ?_
    all_goals rfl

theorem ledger_closing
    (k n : Nat)
    (ok : Bool) :
    (st.closing k n ok).ledger = st.ledger := by
  unfold Traffic.closing
  dsimp only
  split
  · rfl
  · split
    all_goals
      refine ledger_setClient st (k := k) ?_ ?_ ?_
    all_goals rfl

theorem ledger_handle
    (n : Nat)
    (ok writable : Bool) :
    (st.handle n ok writable).ledger = st.ledger := by
  unfold Traffic.handle
  split
  · rfl
  · split
    · rfl
    · split <;> rfl
    · rfl
    · rfl

/- What happens without a message of a client. -/
def Event.IsInner : Event ι → Prop
| .online _ _ _ | .data _ _ => False
| _ => True

/- Then nobody asks to log in, and no data comes in. -/
theorem ledger_next
    (st : Traffic ι)
    (clock : Int → String)
    {e : Event ι}
    (hInner : e.IsInner) :
    (st.next clock e).ledger = st.ledger := by
  cases e with
  | online k from_ sid => exact hInner.elim
  | data k msg => exact hInner.elim
  | task k n ok => exact ledger_task clock k n ok
  | close k => exact ledger_setClient st (k := k) rfl rfl rfl
  | closing k n ok => exact ledger_closing k n ok
  | arrive n =>
      simp only [next, arrive]
      split <;> rfl
  | handle n ok writable => exact ledger_handle n ok writable
  | lose n => rfl
  | sessionOn i r => rfl
  | sessionOff i sid => rfl
  | router i wsNode workerMap => rfl
  | expire users sessions => rfl

omit [DecidableEq ι] in
/- With what has happened as before, it stays unique. -/
theorem Inv.of_ledger
    {st' : Traffic ι}
    (hInv : st.Inv)
    (hLedger : st'.ledger = st.ledger)
    (hHolds : st'.Holds st.ledger) :
    st'.Inv where
  unique := by
    rw [hLedger]
    exact hInv.unique
  holds := by
    rw [hLedger]
    exact hHolds

omit [DecidableEq ι] in
/- A fresh session is the channel's that makes it. -/
theorem ledger_online
    (st : Traffic ι)
    (k : Nat)
    (from_ sid : String) :
    st.ledger.Le (st.online k from_ sid).ledger ∧
      (∀ k' sid',
        (st.online k from_ sid).ledger.created k' sid' ↔
          st.ledger.created k' sid' ∨
            (k' = k ∧ sid' = sid)) ∧
      (st.online k from_ sid).ledger.online k from_ := by
  have hCreated :
      ∀ k' sid',
        (st.online k from_ sid).ledger.created k' sid' ↔
          st.ledger.created k' sid' ∨
            (k' = k ∧ sid' = sid) := by
    intro k' sid'
    simp only [ledger, Traffic.online, setClient,
      Function.update_apply]
    by_cases hSame : k' = k
    · subst hSame
      simp [or_comm]
    · simp [hSame]
  refine ⟨⟨?_, ?_, ?_, fun _ h => h⟩, hCreated, ?_⟩
  · exact fun k' sid' h => (hCreated k' sid').mpr (.inl h)
  · intro k' u hOnline
    simp only [ledger, Traffic.online, setClient,
      Function.update_apply] at hOnline ⊢
    split_ifs with hSame
    · subst hSame
      exact List.mem_cons_of_mem _ hOnline
    · exact hOnline
  · funext k'
    simp only [ledger, Traffic.online, setClient,
      Function.update_apply]
    split_ifs with hSame
    · rw [hSame]
    · rfl
  · simp [ledger, Traffic.online, setClient]

omit [DecidableEq ι] in
/- A message to log in makes a session of its channel. -/
theorem Inv.online
    (hInv : st.Inv)
    {k : Nat}
    {from_ sid : String}
    (hFresh : ∀ k', sid ∉ (st.clients k').created) :
    (st.online k from_ sid).Inv := by
  rcases ledger_online st k from_ sid with
    ⟨hLe, hCreated, hOnline⟩
  have hClient := hInv.holds.clients k
  constructor
  case unique =>
    intro k₁ k₂ sid' hFirst hSecond
    rcases (hCreated k₁ sid').mp hFirst with
      hOld₁ | ⟨rfl, rfl⟩ <;>
      rcases (hCreated k₂ sid').mp hSecond with
        hOld₂ | ⟨rfl, hSid⟩
    · exact hInv.unique k₁ k₂ sid' hOld₁ hOld₂
    · subst hSid
      exact absurd hOld₁ (hFresh k₁)
    · exact absurd hOld₂ (hFresh k₂)
    · rfl
  case holds =>
    apply (hInv.holds.mono hLe).setClient
    constructor
    case objects =>
      constructor
      case localSession =>
        intro sid' hLocal
        cases hLocal
        exact (hCreated k _).mpr (.inr ⟨rfl, rfl⟩)
      case userids =>
        intro sid' u hUser
        simp only [Function.update_apply] at hUser
        split_ifs at hUser
        exact hLe.online k u
          (hClient.objects.userids sid' u hUser)
    case tasks =>
      intro task hMem
      rcases List.mem_append.mp hMem with hOld | hNew
      · have hSound := hClient.tasks task hOld
        refine ⟨hLe.online k _ hSound.1, ?_⟩
        -- tasks are about sessions made before this one
        refine (hSound.2.of_userids ?_).mono hLe
        intro sid' hMade hSet
        have hOther : sid' ≠ sid := by
          rintro rfl
          exact hFresh k hMade
        simpa [Function.update_apply, hOther] using hSet
      · rw [List.mem_singleton.mp hNew]
        exact ⟨hOnline, trivial⟩
    case closings =>
      exact fun pc hMem => (hClient.closings pc hMem).mono hLe

omit [DecidableEq ι] in
/- Data that a client sent is handled at its node. -/
theorem Inv.data
    (hInv : st.Inv)
    (k : Nat)
    (msg : Model) :
    (st.data k msg).Inv := by
  have hLe : st.ledger.Le (st.data k msg).ledger :=
    ⟨fun _ _ h => h, fun _ _ h => h, rfl,
      fun _ h => List.mem_cons_of_mem _ h⟩
  refine ⟨hInv.unique, ?_⟩
  have hHolds := hInv.holds.mono hLe
  exact { hHolds with
    handlings :=
      hHolds.handlings_concat
        ⟨List.mem_cons_self, trivial⟩ }

/- Every event keeps the invariant. -/
theorem Inv.next
    (clock : Int → String)
    (hInv : st.Inv)
    {e : Event ι}
    (hAllowed : st.Allowed e) :
    (st.next clock e).Inv := by
  have hHolds := hInv.holds
  cases e with
  | online k from_ sid => exact hInv.online hAllowed.2
  | task k n ok =>
      exact hInv.of_ledger (ledger_task clock k n ok)
        (hHolds.task clock k n rfl ok)
  | close k =>
      have hClient := hHolds.clients k
      refine hInv.of_ledger
        (ledger_setClient st (k := k) rfl rfl rfl)
        (hHolds.setClient
          ⟨hClient.objects, hClient.tasks, ?_⟩)
      intro pc hMem
      rcases List.mem_append.mp hMem with hOld | hNew
      · exact hClient.closings pc hOld
      · rw [List.mem_singleton.mp hNew]
        trivial
  | closing k n ok =>
      exact hInv.of_ledger (ledger_closing k n ok)
        (hHolds.closing k n rfl ok)
  | data k msg => exact hInv.data k msg
  | arrive n =>
      simp only [Traffic.next, Traffic.arrive]
      split
      case h_1 => exact hInv
      case h_2 packet hGet =>
        have hReceived :=
          hHolds.inFlight packet (List.mem_of_getElem? hGet)
        exact hInv.of_ledger rfl { hHolds with
          inFlight := fun packet hMem =>
            hHolds.inFlight packet (List.mem_of_mem_eraseIdx hMem)
          handlings :=
            hHolds.handlings_concat ⟨hReceived, trivial⟩ }
  | lose n =>
      exact hInv.of_ledger rfl { hHolds with
        inFlight := fun packet hMem =>
          hHolds.inFlight packet (List.mem_of_mem_eraseIdx hMem) }
  | handle n ok writable =>
      exact hInv.of_ledger (ledger_handle n ok writable)
        (hHolds.handle hInv.unique n ok writable)
  | sessionOn i r =>
      refine hInv.of_ledger rfl (hHolds.setNode ?_)
      simp only [SessionManager.addRemoteSession]
      split
      · exact hHolds.nodes i
      · exact (hHolds.nodes i).insert_remote r.sessionid ⟨r⟩
  | sessionOff i sid =>
      refine hInv.of_ledger rfl (hHolds.setNode ?_)
      simp only [SessionManager.removeRemoteSession]
      split
      · exact hHolds.nodes i
      · exact (hHolds.nodes i).erase sid
  | router i wsNode workerMap =>
      exact hInv.of_ledger rfl
        (hHolds.setNode (hHolds.nodes i))
  | expire users sessions =>
      exact hInv.of_ledger rfl { hHolds with
        redis := hHolds.redis.expire users sessions
        nodes := hHolds.nodes }

omit [DecidableEq ι] in
theorem Start.inv
    (hStart : st.Start) :
    st.Inv where
  unique k k' sid hMem := by
    simp [ledger, hStart.created] at hMem
  holds :=
    { redis := by
        intro key u hUser
        simp [hStart.redis] at hUser
      nodes := by
        intro i sid s hEntry
        simp [hStart.nodes] at hEntry
      clients := fun k =>
        ⟨⟨by simp [hStart.localSession],
            by simp [hStart.userids]⟩,
          by simp [hStart.tasks], by simp [hStart.closings]⟩
      handlings := by simp [hStart.handlings]
      inFlight := by simp [hStart.inFlight]
      written := by simp [hStart.written] }

theorem inv_of_reach
    {clock : Int → String}
    (hReach : Transition.Reach Start (Step clock) st) :
    st.Inv := by
  apply hReach.invariant
  case hInit => exact fun _ hStart => hStart.inv
  case hStep =>
    rintro before after hInv ⟨e, hAllowed, rfl⟩
    exact hInv.next clock hAllowed

/-
  Data is only written to channels that asked to log in as
  its receiver, and it is data that a client sent.
-/
theorem confined
    {clock : Int → String}
    (hReach : Transition.Reach Start (Step clock) st) :
    ∀ w ∈ st.written,
      w.2.to_ ∈ (st.clients w.1).online ∧
        w.2 ∈ st.received :=
  (inv_of_reach hReach).holds.written

/- Two nodes; the first channel is at one, others are not. -/
def calm : Traffic Bool where
  cluster :=
    ⟨fun i => ⟨{ id := if i then 1 else 2 }, ∅, ∅⟩, .empty⟩
  clients k :=
    ⟨k = 0, fun _ => none, none, none, true, [], [], [], []⟩
  handlings := []
  inFlight := []
  received := []
  written := []

/- One node gets a sender to the other. -/
def connected : Traffic Bool :=
  calm.next (fun _ => "0")
    (.router false { id := 2 }
      (AList.singleton 1 ⟨{ id := 1 }, true, some true⟩))

/- The first channel's message to log in is read. -/
def asked : Traffic Bool :=
  connected.next (fun _ => "0") (.online 0 "b" "s")

/- A message to the user of the first channel. -/
def toFirst : Model :=
  { cmd_ := 3, from_ := "a", to_ := "b" }

/-
  The login is done, a channel of the other node sends its
  data, and both nodes handle it.
-/
def crossed : Traffic Bool :=
  (List.replicate 11 (.task 0 0 true) ++
    [.data 1 toFirst] ++
    List.replicate 6 (.handle 0 true true) ++
    [.arrive 0] ++
    List.replicate 5 (.handle 1 true true) :
      List (Event Bool)).foldl
    (next fun _ => "0") asked

theorem start_calm : calm.Start :=
  ⟨rfl, fun _ => rfl, fun _ _ => rfl, fun _ => rfl,
    fun _ => rfl, fun _ => rfl, fun _ => rfl, fun _ => rfl,
    rfl, rfl, rfl, rfl⟩

theorem reach_crossed :
    Transition.Reach Start (Step fun _ => "0") crossed := by
  have hConnected :
      Transition.Reach Start (Step fun _ => "0")
        connected :=
    .step (.init start_calm) ⟨.router false { id := 2 }
      (AList.singleton 1 ⟨{ id := 1 }, true, some true⟩),
      trivial, rfl⟩
  have hAsked :
      Transition.Reach Start (Step fun _ => "0") asked :=
    hConnected.step
      ⟨.online 0 "b" "s", ⟨rfl, fun k => by
        change "s" ∉ []
        simp⟩, rfl⟩
  refine hAsked.foldl ?_
  intro e hMem before
  refine ⟨e, ?_, rfl⟩
  simp only [List.mem_append, List.mem_replicate,
    List.mem_singleton] at hMem
  rcases hMem with
    (((⟨_, rfl⟩ | rfl) | ⟨_, rfl⟩) | rfl) | ⟨_, rfl⟩
  · trivial
  · exact rfl
  · trivial
  · trivial
  · trivial

/- The data gets to the first channel. -/
theorem written_crossed : (0, toFirst) ∈ crossed.written := by
  decide +kernel

theorem confined_crossed :
    toFirst.to_ ∈ (crossed.clients 0).online ∧
      toFirst ∈ crossed.received := by
  have hConfined := confined reach_crossed
  have hWritten := written_crossed
  revert hConfined hWritten
  -- the state itself need not be computed again
  generalize crossed = st
  intro hConfined hWritten
  exact hConfined (0, toFirst) hWritten

/-
  A stored record lists sessions of channels that asked to
  log in as its user, and only the node of a channel has a
  session of it as its own.
-/
theorem sessions_at_home
    {clock : Int → String}
    (hReach : Transition.Reach Start (Step clock) st) :
    (∀ u,
      ∀ r ∈ UserCacheImpl.records st.cluster.redis (some u),
        ∃ k, r.sessionid ∈ (st.clients k).created ∧
          u ∈ (st.clients k).online) ∧
      (∀ i sid s,
        st.cluster.entry i sid = some (.localSession s) →
          s.sessionId = sid ∧
            sid ∈ (st.clients s.channel.id).created ∧
            (st.clients s.channel.id).home = i) ∧
      ∀ i j sid s t,
        st.cluster.entry i sid = some (.localSession s) →
          st.cluster.entry j sid = some (.localSession t) →
            i = j ∧ s.channel.id = t.channel.id := by
  have hInv := inv_of_reach hReach
  refine ⟨?_, hInv.holds.nodes, ?_⟩
  · intro u r hMem
    unfold UserCacheImpl.records at hMem
    split at hMem
    case h_1 => cases hMem
    case h_2 userCache hGet =>
      have hListed :=
        hInv.holds.redis _ userCache hGet r hMem
      rwa [st.cluster.redis.users_key _ _ hGet] at hListed
  · intro i j sid s t hS hT
    have hLeft := hInv.holds.nodes i sid s hS
    have hRight := hInv.holds.nodes j sid t hT
    have hChannel :=
      hInv.unique _ _ sid hLeft.2.1 hRight.2.1
    refine ⟨?_, hChannel⟩
    rw [← hLeft.2.2, ← hRight.2.2, hChannel]

theorem sessions_at_home_crossed :
    ∃ k, "s" ∈ (crossed.clients k).created ∧
      "b" ∈ (crossed.clients k).online :=
  (sessions_at_home reach_crossed).1 "b"
    ⟨some "b", "s", { id := 1 }⟩ (by decide +kernel)

end Traffic

end NettyCluster
