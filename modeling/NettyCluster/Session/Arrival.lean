import NettyCluster.Lib.Account
import NettyCluster.Session.Confinement

/-
  Data gets to its receiver, once.

  A session is in its place when the record of its user
  lists it, its node holds it as its own, and nothing under
  way is about to change that. It stays there as long as its
  channel is not closed, its user's record does not expire,
  and commands that read the record do not fail. Meanwhile
  what its node handles for the user is written to the
  channel exactly once, however the steps are interleaved.

  Main declarations:
    * `Place`, `Traffic.InPlace`, `Traffic.Event.Spares`
    * `Traffic.Tied`, `Traffic.tied_of_reach`
    * `Place.account`, `Place.account_next`
    * `Traffic.arrived_once`
-/

------------------------------------------------------------
-- A Session in Its Place
------------------------------------------------------------

namespace NettyCluster

open MessageInfo

/- A session: its user, its id, its channel and its node. -/
structure Place (ι : Type) where
  user : String
  sid : String
  channel : Nat
  home : ι

variable {ι : Type}

section Places

variable (p : Place ι)

/- The stored record of the user lists the session. -/
def Place.Recorded (redis : Redis) : Prop :=
  ∃ u, redis.users p.user = some u ∧ p.sid ∈ sids u.map

/- A node has the session as its own. -/
def Place.Held (m : SessionMap) : Prop :=
  ∃ s, m.lookup p.sid = some (.localSession s)

/- Stored as the user's, the record lists the session. -/
def UserCache.Keeps (u : UserCache) : Prop :=
  userKey u.userId = p.user → p.sid ∈ sids u.map

/- A login task writes no record without the session. -/
def TaskPc.Spares : TaskPc → Prop
| .fetched _ uid read =>
    (read.getD (UserCache.new uid)).Keeps p
| _ => True

/- A call that closes is about another session. -/
def ClosePc.Spares : ClosePc → Prop
| .bound sid | .found sid _ | .removing sid _
| .unrecorded sid | .deleted sid => sid ≠ p.sid
| .fetched sid uid read =>
    sid ≠ p.sid ∧ (read.getD (UserCache.new uid)).Keeps p
| .active | .erased | .closed => True

/- A lookup does not take the session for a remote one. -/
def LookupPc.Spares : LookupPc → Prop
| .absent r _ _ => r.sessionid ≠ p.sid
| _ => True

def HandlingPc.Spares : HandlingPc → Prop
| .looking pc => pc.Spares p
| .writing _ => True

end Places

namespace Traffic

/-
  The session is recorded and held, it is the only one its
  channel has made, the login is over, the channel is not
  closed, and nothing under way is about to take the session
  out.
-/
structure InPlace
    (st : Traffic ι)
    (p : Place ι) : Prop where
  recorded : p.Recorded st.cluster.redis
  held : p.Held (st.cluster.nodes p.home).sessionMap
  home : (st.clients p.channel).home = p.home
  created : (st.clients p.channel).created = [p.sid]
  connectHandler :
    (st.clients p.channel).connectHandler = false
  tasks :
    ∀ k, ∀ task ∈ (st.clients k).tasks, task.pc.Spares p
  closings :
    ∀ k, ∀ pc ∈ (st.clients k).closings,
      pc.Spares p ∧ (k = p.channel → pc ≠ .active)
  handlings :
    ∀ h ∈ st.handlings, h.node = p.home → h.pc.Spares p

/-
  What may happen while the session is to stay in its place:
  no failure that makes a task forget it, no closing of its
  channel, no expiry of its user's record, no notice that it
  is elsewhere, and no failure in handling data of its user
  on its node.
-/
def Event.Spares
    (p : Place ι)
    (st : Traffic ι) : Event ι → Prop
| .task k n ok =>
    ok = false →
      ∀ task, (st.clients k).tasks[n]? = some task →
        task.pc.failed.Spares p
| .close k => k ≠ p.channel
| .closing k n ok =>
    ok = false →
      ∀ pc, (st.clients k).closings[n]? = some pc →
        pc.failed.Spares p
| .handle n ok writable =>
    ∀ h, st.handlings[n]? = some h →
      h.node = p.home → h.msg.to_ = p.user →
        ok = true ∧ writable = true ∧
          ∀ session rest, h.pc = .writing (session :: rest) →
            ((session.onChannel true).writeAndFlush
              (st.cluster.nodes h.node) h.msg).thrown = none
| .sessionOn i r => i = p.home → r.sessionid ≠ p.sid
| .expire users _ => users p.user = true
| _ => True

variable [DecidableEq ι]

/- Something happens that spares the session. -/
def SparingStep
    (clock : Int → String)
    (p : Place ι)
    (st st' : Traffic ι) : Prop :=
  ∃ e, st.Allowed e ∧ e.Spares p st ∧ st' = st.next clock e

end Traffic

------------------------------------------------------------
-- What Is Still to Be Written
------------------------------------------------------------

/- The handle is a session on the channel. -/
def ServerSession.isOn
    (k : Nat) : ServerSession → Bool
| .localSession s => s.channel.id == k
| .remoteSession _ => false

/- The handles a lookup has found so far. -/
def LookupPc.handles : LookupPc → List ServerSession
| .called => []
| .listed _ sessions | .absent _ _ sessions => sessions
| .returned sessions => sessions.getD []

def HandlingPc.handles : HandlingPc → List ServerSession
| .looking pc => pc.handles
| .writing rest => rest

namespace Place

variable (p : Place ι)

/- How often a lookup will make its node write to it. -/
def dueLookup : LookupPc → Nat
| .called => 1
| .listed rest sessions | .absent _ rest sessions =>
    (sids rest).count p.sid +
      sessions.countP (·.isOn p.channel)
| .returned sessions =>
    (sessions.getD []).countP (·.isOn p.channel)

def duePc : HandlingPc → Nat
| .looking pc => p.dueLookup pc
| .writing rest => rest.countP (·.isOn p.channel)

variable [DecidableEq ι]

/- The node of the session handles the message. -/
def handles
    (msg : Model)
    (h : Handling ι) : Bool :=
  h.node = p.home && h.msg = msg

/- How often the message is still to be written for it. -/
def due
    (msg : Model)
    (h : Handling ι) : Nat :=
  if p.handles msg h then p.duePc h.pc else 0

/-
  The account of a message: how often it was written to the
  channel, how often it still is to be, and how often the
  node has begun to handle it.
-/
def account (msg : Model) : Account (Traffic ι) where
  done st := st.written.count (p.channel, msg)
  due st := Account.total (p.due msg) st.handlings
  begun st := st.handlings.countP (p.handles msg)

end Place

end NettyCluster

------------------------------------------------------------
-- What All Runs Keep
------------------------------------------------------------

namespace NettyCluster

open MessageInfo

variable {ι : Type}

/- A session of a channel that is on the node. -/
def ServerSession.At
    (L : Ledger ι)
    (i : ι) : ServerSession → Prop
| .localSession s => L.home s.channel.id = i
| .remoteSession _ => True

theorem Ledger.Le.of_eq
    {L L' : Ledger ι}
    (hEq : L' = L) :
    L.Le L' := by
  subst hEq
  exact ⟨fun _ _ h => h, fun _ _ h => h, rfl, fun _ h => h⟩

theorem ServerSession.At.mono
    {L L' : Ledger ι}
    (hLe : L.Le L')
    {i : ι}
    {session : ServerSession}
    (hAt : session.At L i) :
    session.At L' i := by
  cases session with
  | localSession s =>
      change L'.home s.channel.id = i
      rw [hLe.home]
      exact hAt
  | remoteSession s => trivial

/- A handle that a node has in its map is at the node. -/
theorem SessionMap.Homed.at
    {L : Ledger ι}
    {i : ι}
    {m : SessionMap}
    (hMap : SessionMap.Homed L i m)
    {sid : String}
    {session : ServerSession}
    (hEntry : m.lookup sid = some session) :
    session.At L i := by
  cases session with
  | localSession s => exact (hMap sid s hEntry).2.2
  | remoteSession s => trivial

/- A lookup finds handles that are at its node. -/
theorem LookupPc.step_at
    {L : Ledger ι}
    (userid : Option String)
    (site : Site ι)
    {i : ι}
    (hMap : SessionMap.Homed L i site.node.sessionMap)
    {pc : LookupPc}
    (hPc : ∀ s ∈ pc.handles, s.At L i) :
    ∀ s ∈ (LookupPc.step userid site pc).2.handles,
      s.At L i := by
  cases pc with
  | called =>
      simp only [LookupPc.step]
      split
      case h_1 => simp [LookupPc.handles]
      case h_2 =>
        split_ifs <;> simp [LookupPc.handles]
  | listed rest sessions =>
      cases rest with
      | nil => exact hPc
      | cons r rest =>
          simp only [LookupPc.step]
          split
          case h_1 session hEntry =>
            intro s hMem
            rcases List.mem_append.mp hMem with hOld | hNew
            · exact hPc s hOld
            · rw [List.mem_singleton.mp hNew]
              exact hMap.at hEntry
          case h_2 => exact hPc
  | absent r rest sessions =>
      intro s hMem
      rcases List.mem_append.mp hMem with hOld | hNew
      · exact hPc s hOld
      · rw [List.mem_singleton.mp hNew]
        trivial
  | returned sessions => exact hPc

namespace ClientLogin

/- Only binding a session changes which one is bound. -/
theorem taskStep_sessionKey
    (clock : Int → String)
    (from_ : String)
    (login : ClientLogin ι)
    (pc : TaskPc)
    {sid : String}
    (hKey :
      (taskStep clock from_ login pc).1.sessionKey =
        some sid) :
    login.sessionKey = some sid ∨ pc = .named sid := by
  cases pc with
  | named s =>
      right
      cases hKey
      rfl
  | queued =>
      simp only [taskStep] at hKey
      split at hKey <;> exact .inl hKey
  | _ => exact .inl hKey

end ClientLogin

namespace Traffic

variable [DecidableEq ι]
variable {st : Traffic ι}

/- What a step of handling data may be. -/
theorem handle_cases
    (st : Traffic ι)
    (n : Nat)
    (ok writable : Bool) :
    st.handle n ok writable = st ∨
      ∃ h, st.handlings[n]? = some h ∧
        ((∃ sessions,
          h.pc = .looking (.returned sessions) ∧
          st.handle n ok writable =
            { st with
              handlings :=
                st.handlings.set n
                  { h with
                    pc := .writing (sessions.getD []) } }) ∨
        (∃ pc, h.pc = .looking pc ∧ ok = false ∧
          st.handle n ok writable =
            { st with
              handlings :=
                st.handlings.set n
                  { h with pc := .looking pc.failed } }) ∨
        (∃ pc, h.pc = .looking pc ∧ ok = true ∧
          st.handle n ok writable =
            { st with
              cluster :=
                st.cluster.setSite h.node
                  (pc.step (some h.msg.to_)
                    (st.cluster.site h.node)).1
              handlings :=
                st.handlings.set n
                  { h with
                    pc :=
                      .looking
                        (pc.step (some h.msg.to_)
                          (st.cluster.site h.node)).2 } }) ∨
        ∃ session rest written,
          h.pc = .writing (session :: rest) ∧
          written =
            (session.onChannel writable).writeAndFlush
              (st.cluster.nodes h.node) h.msg ∧
          st.handle n ok writable =
            { st with
              inFlight :=
                st.inFlight ++
                  written.effects.filterMap Effect.copy
              written :=
                st.written ++
                  written.effects.filterMap Effect.toClient
              handlings :=
                st.handlings.set n
                  { h with
                    pc := .writing
                      (if written.thrown.isSome then []
                      else rest) } }) := by
  unfold Traffic.handle
  cases hGet : st.handlings[n]? with
  | none => exact .inl rfl
  | some h =>
      dsimp only
      split
      case h_1 sessions hPc =>
        exact .inr ⟨h, rfl, .inl ⟨sessions, hPc, rfl⟩⟩
      case h_2 pc _ hPc =>
        cases ok with
        | false =>
            exact .inr ⟨h, rfl, .inr (.inl
              ⟨pc, hPc, rfl, rfl⟩)⟩
        | true =>
            exact .inr ⟨h, rfl, .inr (.inr (.inl
              ⟨pc, hPc, rfl, rfl⟩))⟩
      case h_3 => exact .inl rfl
      case h_4 session rest hPc =>
        exact .inr ⟨h, rfl, .inr (.inr (.inr
          ⟨session, rest, _, hPc, rfl, rfl⟩))⟩

/- More has happened after each event. -/
theorem ledger_le_next
    (clock : Int → String)
    (st : Traffic ι)
    (e : Event ι) :
    st.ledger.Le (st.next clock e).ledger := by
  cases e with
  | online k from_ sid =>
      exact (ledger_online st k from_ sid).1
  | data k msg =>
      exact ⟨fun _ _ h => h, fun _ _ h => h, rfl,
        fun _ h => List.mem_cons_of_mem _ h⟩
  | _ => exact .of_eq (ledger_next st clock trivial)

/-
  The session bound to a channel was made for it, and the
  handles that a node has found are at the node.
-/
structure Tied (st : Traffic ι) : Prop where
  sessionKeys :
    ∀ k sid, (st.clients k).sessionKey = some sid →
      sid ∈ (st.clients k).created
  handles :
    ∀ h ∈ st.handlings, ∀ s ∈ h.pc.handles,
      s.At st.ledger h.node

namespace Tied

/- A channel is only bound to sessions made for it. -/
theorem sessionKey_next
    (clock : Int → String)
    (hInv : st.Inv)
    (hTied : st.Tied)
    (e : Event ι)
    {k : Nat}
    {sid : String}
    (hKey :
      ((st.next clock e).clients k).sessionKey = some sid) :
    sid ∈ (st.clients k).created := by
  cases e with
  | task k' n ok =>
      simp only [Traffic.next, Traffic.task] at hKey
      split at hKey
      case h_1 => exact hTied.sessionKeys k sid hKey
      case h_2 task hTask =>
        split_ifs at hKey <;>
          simp only [setClient, Function.update_apply]
            at hKey <;>
          split_ifs at hKey with hSame
        all_goals try exact hTied.sessionKeys k sid hKey
        · subst hSame
          rcases ClientLogin.taskStep_sessionKey _ _ _ _
            hKey with hOld | hNamed
          · exact hTied.sessionKeys k sid hOld
          · have hSound :=
              ((hInv.holds.clients k).tasks task
                (List.mem_of_getElem? hTask)).2
            rw [hNamed] at hSound
            exact hSound.1
        · subst hSame
          exact hTied.sessionKeys k sid hKey
  | closing k' n ok =>
      simp only [Traffic.next, Traffic.closing] at hKey
      split at hKey
      case h_1 => exact hTied.sessionKeys k sid hKey
      case h_2 =>
        split_ifs at hKey <;>
          simp only [setClient, Function.update_apply]
            at hKey <;>
          split_ifs at hKey with hSame
        all_goals
          try subst hSame
          exact hTied.sessionKeys _ sid hKey
  | online k' from_ s | close k' =>
      simp only [Traffic.next, Traffic.online, Traffic.close,
        setClient, Function.update_apply] at hKey
      split_ifs at hKey with hSame
      · subst hSame
        exact hTied.sessionKeys k sid hKey
      · exact hTied.sessionKeys k sid hKey
  | arrive n =>
      simp only [Traffic.next, Traffic.arrive] at hKey
      split at hKey <;> exact hTied.sessionKeys k sid hKey
  | handle n ok writable =>
      have hSame :
          (st.handle n ok writable).clients = st.clients := by
        rcases st.handle_cases n ok writable with
          hId | ⟨h, _, ⟨_, _, hNext⟩ | ⟨_, _, _, hNext⟩ |
            ⟨_, _, _, hNext⟩ | ⟨_, _, _, _, _, hNext⟩⟩
        · rw [hId]
        all_goals rw [hNext]
      rw [Traffic.next, hSame] at hKey
      exact hTied.sessionKeys k sid hKey
  | _ => exact hTied.sessionKeys k sid hKey

omit [DecidableEq ι] in
/- One handling is added, or comes to have other handles. -/
theorem handles_set
    (hTied : st.Tied)
    (n : Nat)
    {h : Handling ι}
    {pc : HandlingPc}
    (hPc : ∀ s ∈ pc.handles, s.At st.ledger h.node) :
    ∀ h' ∈ st.handlings.set n { h with pc := pc },
      ∀ s ∈ h'.pc.handles, s.At st.ledger h'.node := by
  intro h' hMem
  rcases List.mem_or_eq_of_mem_set hMem with hOld | rfl
  · exact hTied.handles h' hOld
  · exact hPc

theorem handles_next
    (clock : Int → String)
    (hInv : st.Inv)
    (hTied : st.Tied)
    (e : Event ι) :
    ∀ h ∈ (st.next clock e).handlings,
      ∀ s ∈ h.pc.handles, s.At st.ledger h.node := by
  have hNew :
      ∀ (i : ι) (msg : Model),
        ∀ h ∈ st.handlings ++ [.new i msg],
          ∀ s ∈ h.pc.handles, s.At st.ledger h.node := by
    intro i msg h hMem
    rcases List.mem_append.mp hMem with hOld | hNew
    · exact hTied.handles h hOld
    · rw [List.mem_singleton.mp hNew]
      simp [Handling.new, HandlingPc.handles,
        LookupPc.handles]
  cases e with
  | data k msg => exact hNew _ msg
  | arrive n =>
      simp only [Traffic.next, Traffic.arrive]
      split
      case h_1 => exact hTied.handles
      case h_2 packet hGet =>
        exact hNew packet.node packet.pkg
  | task k n ok =>
      simp only [Traffic.next, Traffic.task]
      split
      case h_1 => exact hTied.handles
      case h_2 => split_ifs <;> exact hTied.handles
  | closing k n ok =>
      simp only [Traffic.next, Traffic.closing]
      split
      case h_1 => exact hTied.handles
      case h_2 => split_ifs <;> exact hTied.handles
  | handle n ok writable =>
      rw [Traffic.next]
      rcases st.handle_cases n ok writable with
        hId | ⟨h, hGet, hCase⟩
      · rw [hId]
        exact hTied.handles
      · have hOwn :=
          hTied.handles h (List.mem_of_getElem? hGet)
        rcases hCase with
          ⟨sessions, hPc, hNext⟩ | ⟨pc, hPc, _, hNext⟩ |
            ⟨pc, hPc, _, hNext⟩ |
            ⟨session, rest, written, hPc, _, hNext⟩
        all_goals
          rw [hNext]
          rw [hPc] at hOwn
          refine hTied.handles_set n ?_
        · exact hOwn
        · cases pc with
          | called => simp [HandlingPc.handles,
              LookupPc.failed, LookupPc.handles]
          | _ => exact hOwn
        · exact LookupPc.step_at _ _
            (hInv.holds.nodes h.node) hOwn
        · intro s hMem
          simp only [HandlingPc.handles] at hMem
          split_ifs at hMem
          · cases hMem
          · exact hOwn s (List.mem_cons_of_mem _ hMem)
  | _ => exact hTied.handles

/- Every event keeps them so. -/
theorem next
    (clock : Int → String)
    (hInv : st.Inv)
    (hTied : st.Tied)
    (e : Event ι) :
    (st.next clock e).Tied where
  sessionKeys k sid hKey :=
    (ledger_le_next clock st e).created k sid
      (hTied.sessionKey_next clock hInv e hKey)
  handles h hMem s hHandle :=
    (hTied.handles_next clock hInv e h hMem s hHandle).mono
      (ledger_le_next clock st e)

end Tied

omit [DecidableEq ι] in
/- Nobody has logged in, and no session is bound. -/
structure Opened (st : Traffic ι) : Prop where
  start : st.Start
  sessionKeys : ∀ k, (st.clients k).sessionKey = none

/- What holds in all runs holds in those, too. -/
theorem inv_of_opened
    {clock : Int → String}
    (hReach : Transition.Reach Opened (Step clock) st) :
    st.Inv :=
  inv_of_reach
    (hReach.mono (fun _ hOpened => hOpened.start)
      fun _ _ hNext => hNext)

theorem tied_of_reach
    {clock : Int → String}
    (hReach : Transition.Reach Opened (Step clock) st) :
    st.Tied := by
  induction hReach with
  | init hOpened =>
      constructor
      case sessionKeys =>
        intro k sid hKey
        rw [hOpened.sessionKeys k] at hKey
        cases hKey
      case handles =>
        intro h hMem
        rw [hOpened.start.handlings] at hMem
        cases hMem
  | step hBefore hNext ih =>
      rcases hNext with ⟨e, _, rfl⟩
      exact ih.next clock (inv_of_opened hBefore) e

end Traffic

end NettyCluster

------------------------------------------------------------
-- Records and Handles Stay
------------------------------------------------------------

namespace NettyCluster

open MessageInfo

variable {ι : Type}
variable {p : Place ι}

namespace UserCache.Keeps

variable {u : UserCache}

theorem addSession
    (hKeeps : u.Keeps p)
    (s : SessionNodeCache) :
    (u.addSession s).Keeps p := by
  intro hUser
  exact (mem_sids_put u.map s p.sid).mpr
    (.inr (hKeeps hUser))

theorem removeSession
    (hKeeps : u.Keeps p)
    {sid : String}
    (hOther : sid ≠ p.sid) :
    (u.removeSession sid).Keeps p := by
  intro hUser
  rcases List.mem_map.mp (hKeeps hUser) with ⟨r, hMem, hSid⟩
  refine List.mem_map.mpr ⟨r, ?_, hSid⟩
  rw [UserCache.mem_removeSession]
  refine ⟨hMem, ?_⟩
  rw [hSid]
  exact hOther.symm

end UserCache.Keeps

namespace Place.Recorded

variable {redis : Redis}

theorem save
    (hRecorded : p.Recorded redis)
    {u : UserCache}
    (hKeeps : u.Keeps p) :
    p.Recorded (UserCacheImpl.save redis u) := by
  by_cases hUser : userKey u.userId = p.user
  · refine ⟨u, ?_, hKeeps hUser⟩
    rw [← hUser]
    exact Function.update_self _ _ _
  · rcases hRecorded with ⟨w, hStored, hMem⟩
    refine ⟨w, ?_, hMem⟩
    change Function.update redis.users (userKey u.userId)
      (some u) p.user = some w
    rw [Function.update_of_ne (fun h => hUser h.symm)]
    exact hStored

/- Whatever is read now does not forget the session. -/
theorem getOrNew
    (hRecorded : p.Recorded redis)
    (uid : Option String) :
    ((UserCacheImpl.get redis uid).getD
      (UserCache.new uid)).Keeps p := by
  intro hUser
  rcases hRecorded with ⟨w, hStored, hMem⟩
  have hKey : userKey uid = p.user := by
    rw [← hUser]
    exact (UserCacheImpl.userKey_getOrNew redis uid).symm
  rw [UserCacheImpl.get, hKey, hStored]
  exact hMem

theorem expire
    (hRecorded : p.Recorded redis)
    {users : String → Bool}
    (hUser : users p.user = true)
    (sessions : String → Bool) :
    p.Recorded (redis.expire users sessions) := by
  rcases hRecorded with ⟨w, hStored, hMem⟩
  refine ⟨w, ?_, hMem⟩
  simp only [Redis.expire, hUser, if_true]
  exact hStored

end Place.Recorded

namespace Place.Held

variable {m : SessionMap}

theorem insert_local
    (hHeld : p.Held m)
    (sid : String)
    (s : LocalSession) :
    p.Held (m.insert sid (.localSession s)) := by
  by_cases hSame : p.sid = sid
  · exact ⟨s, by rw [hSame, AList.lookup_insert]⟩
  · rcases hHeld with ⟨t, hEntry⟩
    exact ⟨t, by rw [AList.lookup_insert_ne hSame, hEntry]⟩

theorem insert_remote
    (hHeld : p.Held m)
    {sid : String}
    (hOther : sid ≠ p.sid)
    (r : RemoteSession) :
    p.Held (m.insert sid (.remoteSession r)) := by
  rcases hHeld with ⟨s, hEntry⟩
  exact ⟨s, by
    rw [AList.lookup_insert_ne hOther.symm, hEntry]⟩

theorem erase
    (hHeld : p.Held m)
    {sid : String}
    (hOther : sid ≠ p.sid) :
    p.Held (m.erase sid) := by
  rcases hHeld with ⟨s, hEntry⟩
  exact ⟨s, by
    rw [AList.lookup_erase_ne hOther.symm, hEntry]⟩

theorem setUserid
    (hHeld : p.Held m)
    (sid userid : String) :
    p.Held (SessionMap.setUserid m sid userid) := by
  unfold SessionMap.setUserid
  split
  case h_1 s _ =>
    exact hHeld.insert_local sid
      { s with userid := some userid }
  case h_2 => exact hHeld

end Place.Held

/- A node, with the records, on which the session stays. -/
structure Place.Stays
    (p : Place ι)
    (i : ι)
    (site : Site ι) : Prop where
  recorded : p.Recorded site.redis
  held : i = p.home → p.Held site.node.sessionMap

namespace Place.Stays

variable {i : ι}

/- Login tasks leave the session where it is. -/
theorem taskStep
    (clock : Int → String)
    (from_ : String)
    {login : ClientLogin ι}
    (hStays : p.Stays i login.site)
    {pc : TaskPc}
    (hPc : pc.Spares p) :
    p.Stays i
        (ClientLogin.taskStep clock from_ login pc).1.site ∧
      (ClientLogin.taskStep clock from_ login
        pc).2.Spares p := by
  have hRecorded := hStays.recorded
  cases pc with
  | queued =>
      simp only [ClientLogin.taskStep]
      split <;> exact ⟨hStays, trivial⟩
  | captured sid =>
      exact ⟨⟨hRecorded, fun hHome =>
        (hStays.held hHome).setUserid sid from_⟩, trivial⟩
  | adding sid uid =>
      exact ⟨⟨hRecorded, fun hHome =>
        (hStays.held hHome).insert_local sid _⟩, trivial⟩
  | saved sid uid =>
      exact ⟨hStays, hRecorded.getOrNew uid⟩
  | fetched sid uid read =>
      exact ⟨⟨hRecorded.save
        (UserCache.Keeps.addSession hPc _), hStays.held⟩,
        trivial⟩
  | _ => exact ⟨⟨hRecorded, hStays.held⟩, trivial⟩

/- So do calls that close other sessions. -/
theorem closeStep
    {login : ClientLogin ι}
    (hStays : p.Stays i login.site)
    {pc : ClosePc}
    (hKey : pc = .active → login.sessionKey ≠ some p.sid)
    (hPc : pc.Spares p) :
    p.Stays i (ClientLogin.closeStep login pc).1.site ∧
      (ClientLogin.closeStep login pc).2.Spares p := by
  have hRecorded := hStays.recorded
  cases pc with
  | active =>
      simp only [ClientLogin.closeStep]
      split
      case h_1 => exact ⟨hStays, trivial⟩
      case h_2 sid hBound =>
        refine ⟨hStays, ?_⟩
        rintro rfl
        exact hKey rfl hBound
  | bound sid =>
      simp only [ClientLogin.closeStep]
      split
      case h_1 => exact ⟨hStays, trivial⟩
      case h_2 => exact ⟨hStays, hPc⟩
  | found sid session =>
      simp only [ClientLogin.closeStep]
      split <;> exact ⟨hStays, hPc⟩
  | removing sid uid =>
      exact ⟨hStays, hPc, hRecorded.getOrNew uid⟩
  | fetched sid uid read =>
      exact ⟨⟨hRecorded.save
        (UserCache.Keeps.removeSession hPc.2 hPc.1),
        hStays.held⟩, hPc.1⟩
  | unrecorded sid => exact ⟨⟨hRecorded, hStays.held⟩, hPc⟩
  | deleted sid =>
      exact ⟨⟨hRecorded, fun hHome =>
        (hStays.held hHome).erase hPc⟩, trivial⟩
  | erased => exact ⟨⟨hRecorded, hStays.held⟩, trivial⟩
  | closed => exact ⟨hStays, trivial⟩

/- And so do lookups. -/
theorem lookupStep
    (userid : Option String)
    {site : Site ι}
    (hStays : p.Stays i site)
    {pc : LookupPc}
    (hPc : i = p.home → pc.Spares p) :
    p.Stays i (LookupPc.step userid site pc).1 ∧
      (i = p.home →
        (LookupPc.step userid site pc).2.Spares p) := by
  cases pc with
  | called =>
      simp only [LookupPc.step]
      split
      case h_1 => exact ⟨hStays, fun _ => trivial⟩
      case h_2 =>
        split_ifs <;> exact ⟨hStays, fun _ => trivial⟩
  | listed rest sessions =>
      cases rest with
      | nil => exact ⟨hStays, fun _ => trivial⟩
      | cons r rest =>
          simp only [LookupPc.step]
          split
          case h_1 => exact ⟨hStays, fun _ => trivial⟩
          case h_2 hMissing =>
            refine ⟨hStays, fun hHome hSame => ?_⟩
            rcases hStays.held hHome with ⟨s, hEntry⟩
            rw [hSame, hEntry] at hMissing
            cases hMissing
  | absent r rest sessions =>
      exact ⟨⟨hStays.recorded, fun hHome =>
        (hStays.held hHome).insert_remote (hPc hHome) ⟨r⟩⟩,
        fun _ => trivial⟩
  | returned sessions => exact ⟨hStays, fun _ => trivial⟩

end Place.Stays

end NettyCluster

------------------------------------------------------------
-- The Session Stays in Its Place
------------------------------------------------------------

namespace NettyCluster

open MessageInfo

variable {ι : Type}
variable {p : Place ι}

namespace ClientLogin

/- No task puts the handler for logins back. -/
theorem taskStep_connectHandler
    (clock : Int → String)
    (from_ : String)
    {login : ClientLogin ι}
    (hHandler : login.connectHandler = false)
    (pc : TaskPc) :
    (taskStep clock from_ login pc).1.connectHandler =
      false := by
  cases pc with
  | queued =>
      simp only [taskStep]
      split <;> exact hHandler
  | answered connected => simp [taskStep, hHandler]
  | _ => exact hHandler

/- A call that closes does not begin again. -/
theorem closeStep_ne_active
    (login : ClientLogin ι)
    (pc : ClosePc) :
    (closeStep login pc).2 ≠ .active := by
  cases pc with
  | active | bound | found =>
      simp only [closeStep]
      split <;> simp
  | _ => simp [closeStep]

end ClientLogin

theorem ClosePc.failed_ne_active
    {pc : ClosePc}
    (hPc : pc ≠ .active) :
    pc.failed ≠ .active := by
  cases pc with
  | active => exact absurd rfl hPc
  | _ => simp [ClosePc.failed]

namespace Traffic

variable {st : Traffic ι}

namespace InPlace

/- Each node is one on which the session stays. -/
theorem stays
    (hPlace : st.InPlace p)
    (i : ι) :
    p.Stays i (st.cluster.site i) where
  recorded := hPlace.recorded
  held hHome := by
    rw [hHome]
    exact hPlace.held

/- A channel changes, and nothing else. -/
theorem setClient
    (hPlace : st.InPlace p)
    {k : Nat}
    {c : Client ι}
    (hHome : c.home = (st.clients k).home)
    (hCreated :
      k = p.channel → c.created = (st.clients k).created)
    (hHandler :
      (st.clients k).connectHandler = false →
        c.connectHandler = false)
    (hTasks : ∀ task ∈ c.tasks, task.pc.Spares p)
    (hClosings :
      ∀ pc ∈ c.closings,
        pc.Spares p ∧ (k = p.channel → pc ≠ .active)) :
    (st.setClient k c).InPlace p := by
  by_cases hSame : p.channel = k
  · subst hSame
    refine ⟨hPlace.recorded, hPlace.held, ?_, ?_, ?_, ?_, ?_,
      hPlace.handlings⟩
    · simpa [Traffic.setClient] using
        hHome.trans hPlace.home
    · simpa [Traffic.setClient] using
        (hCreated rfl).trans hPlace.created
    · simpa [Traffic.setClient] using
        hHandler hPlace.connectHandler
    all_goals
      intro k
      simp only [Traffic.setClient, Function.update_apply]
      split_ifs with hKey
    · exact hTasks
    · exact hPlace.tasks k
    · rw [hKey]
      exact hClosings
    · exact hPlace.closings k
  · refine ⟨hPlace.recorded, hPlace.held, ?_, ?_, ?_, ?_, ?_,
      hPlace.handlings⟩
    · simpa [Traffic.setClient, hSame] using hPlace.home
    · simpa [Traffic.setClient, hSame] using hPlace.created
    · simpa [Traffic.setClient, hSame] using
        hPlace.connectHandler
    all_goals
      intro k'
      simp only [Traffic.setClient, Function.update_apply]
      split_ifs with hKey
    · exact hTasks
    · exact hPlace.tasks k'
    · rw [hKey]
      exact hClosings
    · exact hPlace.closings k'

/- Other handlings, and nothing else. -/
theorem handlings_set
    (hPlace : st.InPlace p)
    (n : Nat)
    {h : Handling ι}
    (hSpares : h.node = p.home → h.pc.Spares p) :
    ∀ h' ∈ st.handlings.set n h,
      h'.node = p.home → h'.pc.Spares p := by
  intro h' hMem
  rcases List.mem_or_eq_of_mem_set hMem with hOld | rfl
  · exact hPlace.handlings h' hOld
  · exact hSpares

theorem handlings_new
    (hPlace : st.InPlace p)
    (i : ι)
    (msg : Model) :
    ∀ h ∈ st.handlings ++ [.new i msg],
      h.node = p.home → h.pc.Spares p := by
  intro h hMem
  rcases List.mem_append.mp hMem with hOld | hNew
  · exact hPlace.handlings h hOld
  · rw [List.mem_singleton.mp hNew]
    exact fun _ => trivial

variable [DecidableEq ι]

/- A node and the records change, and nothing else. -/
theorem setSite
    (hPlace : st.InPlace p)
    {i : ι}
    {site : Site ι}
    (hStays : p.Stays i site) :
    InPlace { st with cluster := st.cluster.setSite i site }
      p :=
  { hPlace with
    recorded := hStays.recorded
    held := by
      by_cases hSame : p.home = i
      · subst hSame
        simpa using hStays.held rfl
      · simpa [hSame] using hPlace.held }

/- A login task keeps it there. -/
theorem task
    (clock : Int → String)
    (hPlace : st.InPlace p)
    {k n : Nat}
    {ok : Bool}
    (hSpares : Event.Spares p st (.task k n ok)) :
    (st.task clock k n ok).InPlace p := by
  unfold Traffic.task
  cases hTask : (st.clients k).tasks[n]? with
  | none => simpa [hTask] using hPlace
  | some task =>
      have hSet :
          ∀ pc : TaskPc, pc.Spares p →
            ∀ task' ∈
                (st.clients k).tasks.set n ⟨task.from_, pc⟩,
              task'.pc.Spares p := by
        intro pc hNew task' hMem
        rcases List.mem_or_eq_of_mem_set hMem with
          hOld | rfl
        · exact hPlace.tasks k task' hOld
        · exact hNew
      cases ok with
      | false =>
          simp only [hTask, Bool.false_eq_true, if_false]
          exact hPlace.setClient rfl (fun _ => rfl) id
            (hSet _ (hSpares rfl task hTask))
            (hPlace.closings k)
      | true =>
          have hSound :=
            hPlace.tasks k task (List.mem_of_getElem? hTask)
          have hStep :=
            @Place.Stays.taskStep _ p _ clock task.from_
              ((st.clients k).login k
                (st.cluster.site (st.clients k).home)
                .active)
              (hPlace.stays (st.clients k).home) task.pc
              hSound
          have hHandler := fun hOff =>
            @ClientLogin.taskStep_connectHandler _ clock
              task.from_
              ((st.clients k).login k
                (st.cluster.site (st.clients k).home)
                .active)
              hOff task.pc
          simp only [hTask, if_true]
          generalize ClientLogin.taskStep clock task.from_
            ((st.clients k).login k
              (st.cluster.site (st.clients k).home) .active)
            task.pc = next at hStep hHandler ⊢
          exact (hPlace.setSite hStep.1).setClient rfl
            (fun _ => rfl) hHandler (hSet _ hStep.2)
            (hPlace.closings k)

/- So does a call that closes another session. -/
theorem closing
    (hInv : st.Inv)
    (hTied : st.Tied)
    (hPlace : st.InPlace p)
    {k n : Nat}
    {ok : Bool}
    (hSpares : Event.Spares p st (.closing k n ok)) :
    (st.closing k n ok).InPlace p := by
  unfold Traffic.closing
  cases hClosing : (st.clients k).closings[n]? with
  | none => simpa [hClosing] using hPlace
  | some pc =>
      have hSound :=
        hPlace.closings k pc (List.mem_of_getElem? hClosing)
      have hSet :
          ∀ pc' : ClosePc, pc'.Spares p →
            (k = p.channel → pc' ≠ .active) →
            ∀ pc'' ∈ (st.clients k).closings.set n pc',
              pc''.Spares p ∧
                (k = p.channel → pc'' ≠ .active) := by
        intro pc' hNew hGone pc'' hMem
        rcases List.mem_or_eq_of_mem_set hMem with
          hOld | rfl
        · exact hPlace.closings k pc'' hOld
        · exact ⟨hNew, hGone⟩
      cases ok with
      | false =>
          simp only [hClosing, Bool.false_eq_true, if_false]
          exact hPlace.setClient rfl (fun _ => rfl) id
            (hPlace.tasks k)
            (hSet _ (hSpares rfl pc hClosing) fun hKey =>
              ClosePc.failed_ne_active (hSound.2 hKey))
      | true =>
          -- other channels have other sessions bound
          have hKey :
              pc = .active →
                ((st.clients k).login k
                  (st.cluster.site (st.clients k).home)
                  pc).sessionKey ≠ some p.sid := by
            intro hActive hBound
            have hCreated := hTied.sessionKeys k _ hBound
            have hOwn :
                p.sid ∈ (st.clients p.channel).created := by
              simp [hPlace.created]
            exact hSound.2
              (hInv.unique k p.channel p.sid hCreated hOwn)
              hActive
          have hStep :=
            Place.Stays.closeStep
              (hPlace.stays (st.clients k).home) hKey
              hSound.1
          have hGone :=
            ClientLogin.closeStep_ne_active
              ((st.clients k).login k
                (st.cluster.site (st.clients k).home) pc) pc
          simp only [hClosing, if_true]
          exact (hPlace.setSite hStep.1).setClient rfl
            (fun _ => rfl) id (hPlace.tasks k)
            (hSet _ hStep.2 fun _ => hGone)

/- So does handling data. -/
theorem handle
    (hPlace : st.InPlace p)
    (n : Nat)
    (ok writable : Bool) :
    (st.handle n ok writable).InPlace p := by
  rcases st.handle_cases n ok writable with
    hId | ⟨h, hGet, hCase⟩
  · rw [hId]
    exact hPlace
  · have hOwn :=
      hPlace.handlings h (List.mem_of_getElem? hGet)
    rcases hCase with
      ⟨sessions, hPc, hNext⟩ | ⟨pc, hPc, _, hNext⟩ |
        ⟨pc, hPc, _, hNext⟩ |
        ⟨session, rest, written, hPc, _, hNext⟩
    all_goals
      rw [hNext]
      rw [hPc] at hOwn
    · exact { hPlace with
        handlings :=
          hPlace.handlings_set n fun _ => trivial }
    · refine { hPlace with
        handlings := hPlace.handlings_set n ?_ }
      cases pc with
      | called => exact fun _ => trivial
      | _ => exact hOwn
    · have hStep :=
        (hPlace.stays h.node).lookupStep (some h.msg.to_)
          hOwn
      exact { hPlace.setSite hStep.1 with
        handlings := hPlace.handlings_set n hStep.2 }
    · exact { hPlace with
        handlings :=
          hPlace.handlings_set n fun _ => trivial }

/- Whatever spares the session keeps it in its place. -/
theorem next
    (clock : Int → String)
    (hInv : st.Inv)
    (hTied : st.Tied)
    (hPlace : st.InPlace p)
    {e : Event ι}
    (hAllowed : st.Allowed e)
    (hSpares : e.Spares p st) :
    (st.next clock e).InPlace p := by
  cases e with
  | online k from_ sid =>
      have hOther : k ≠ p.channel := by
        rintro rfl
        have hOff := hPlace.connectHandler
        rw [hAllowed.1] at hOff
        cases hOff
      refine hPlace.setClient rfl
        (fun hSame => absurd hSame hOther) id ?_
        (hPlace.closings k)
      intro task hMem
      rcases List.mem_append.mp hMem with hOld | hNew
      · exact hPlace.tasks k task hOld
      · rw [List.mem_singleton.mp hNew]
        trivial
  | task k n ok => exact hPlace.task clock hSpares
  | close k =>
      refine hPlace.setClient rfl (fun _ => rfl) id
        (hPlace.tasks k) ?_
      intro pc hMem
      rcases List.mem_append.mp hMem with hOld | hNew
      · exact hPlace.closings k pc hOld
      · rw [List.mem_singleton.mp hNew]
        exact ⟨trivial, fun hSame => absurd hSame hSpares⟩
  | closing k n ok => exact hPlace.closing hInv hTied hSpares
  | data k msg =>
      exact { hPlace with
        handlings := hPlace.handlings_new _ msg }
  | arrive n =>
      simp only [Traffic.next, Traffic.arrive]
      split
      case h_1 => exact hPlace
      case h_2 packet hGet =>
        exact { hPlace with
          handlings := hPlace.handlings_new _ packet.pkg }
  | lose n => exact { hPlace with }
  | handle n ok writable => exact hPlace.handle n ok writable
  | sessionOn i r =>
      refine hPlace.setSite
        ⟨hPlace.recorded, fun hHome => ?_⟩
      rw [SessionManager.addRemoteSession_sessionMap]
      have hHeld := hPlace.held
      rw [← hHome] at hHeld
      exact hHeld.insert_remote (hSpares hHome) ⟨r⟩
  | sessionOff i sid =>
      refine hPlace.setSite
        ⟨hPlace.recorded, fun hHome => ?_⟩
      rw [SessionManager.removeRemoteSession_eq, hHome]
      exact hPlace.held
  | router i wsNode workerMap =>
      refine hPlace.setSite
        ⟨hPlace.recorded, fun hHome => ?_⟩
      rw [hHome]
      exact hPlace.held
  | expire users sessions =>
      exact { hPlace with
        recorded :=
          hPlace.recorded.expire hSpares sessions }

end InPlace

end Traffic

end NettyCluster

------------------------------------------------------------
-- What Is Begun Is Done
------------------------------------------------------------

namespace NettyCluster

open MessageInfo

variable {ι : Type}
variable {p : Place ι}

/- A node whose own sessions are as the ledger has them. -/
structure Place.Own
    (p : Place ι)
    (L : Ledger ι)
    (m : SessionMap) : Prop where
  unique : L.Unique
  homed : SessionMap.Homed L p.home m
  held : p.Held m
  created : ∀ sid, L.created p.channel sid ↔ sid = p.sid

namespace Place.Own

variable {L : Ledger ι}
variable {m : SessionMap}

/- The handle of the session is on its channel. -/
theorem isOn_self
    (hOwn : p.Own L m)
    {session : ServerSession}
    (hEntry : m.lookup p.sid = some session) :
    session.isOn p.channel = true := by
  rcases hOwn.held with ⟨s, hHeld⟩
  rw [hHeld] at hEntry
  cases hEntry
  have hChannel :=
    hOwn.unique _ _ p.sid (hOwn.homed p.sid s hHeld).2.1
      ((hOwn.created p.sid).mpr rfl)
  simp [ServerSession.isOn, hChannel]

/- Other handles are not. -/
theorem isOn_other
    (hOwn : p.Own L m)
    {sid : String}
    (hOther : sid ≠ p.sid)
    {session : ServerSession}
    (hEntry : m.lookup sid = some session) :
    session.isOn p.channel = false := by
  cases session with
  | remoteSession s => rfl
  | localSession s =>
      have hCreated := (hOwn.homed sid s hEntry).2.1
      simp only [ServerSession.isOn, beq_eq_false_iff_ne]
      intro hSame
      rw [hSame] at hCreated
      exact hOther ((hOwn.created sid).mp hCreated)

/-
  A step of a lookup for the user neither loses the session
  nor finds it twice.
-/
theorem dueLookup_step
    (site : Site ι)
    (hOwn : p.Own L site.node.sessionMap)
    (hRecorded : p.Recorded site.redis)
    {pc : LookupPc}
    (hPc : pc.Spares p) :
    p.dueLookup (LookupPc.step (some p.user) site pc).2 =
      p.dueLookup pc := by
  cases pc with
  | called =>
      rcases hRecorded with ⟨u, hStored, hMem⟩
      have hGet :
          UserCacheImpl.get site.redis (some p.user) =
            some u :=
        hStored
      have hNonempty : u.map.isEmpty = false := by
        rw [List.isEmpty_eq_false_iff]
        rintro hNil
        simp [hNil, sids] at hMem
      simp only [LookupPc.step, hGet, hNonempty,
        Bool.false_eq_true, if_false, dueLookup,
        List.countP_nil, Nat.add_zero]
      exact List.count_eq_one_of_mem u.nodup hMem
  | listed rest sessions =>
      cases rest with
      | nil => simp [LookupPc.step, dueLookup, sids]
      | cons r rest =>
          by_cases hSame : r.sessionid = p.sid
          · rcases hOwn.held with ⟨s, hEntry⟩
            have hOn := hOwn.isOn_self hEntry
            have hFound :
                site.node.sessionMap.lookup r.sessionid =
                  some (.localSession s) := by
              rw [hSame, hEntry]
            simp only [LookupPc.step, hFound, dueLookup,
              sids, List.map_cons, hSame,
              List.count_cons_self, List.countP_append,
              List.countP_singleton, hOn, if_true]
            omega
          · simp only [LookupPc.step]
            split
            case h_1 session hEntry =>
              have hOff := hOwn.isOn_other hSame hEntry
              simp [dueLookup, sids, List.countP_append,
                hOff, hSame]
            case h_2 => simp [dueLookup, sids, hSame]
  | absent r rest sessions =>
      simp [LookupPc.step, dueLookup, List.countP_append,
        ServerSession.isOn]
  | returned sessions => rfl

end Place.Own

namespace ServerSession

/- Only what is on a channel writes to it. -/
theorem count_written
    (session : ServerSession)
    (writable : Bool)
    (node : Node ι)
    (msg msg' : Model)
    {k : Nat}
    (hOff : session.isOn k = false ∨ msg ≠ msg') :
    (((session.onChannel writable).writeAndFlush node
      msg).effects.filterMap Effect.toClient).count
        (k, msg') = 0 := by
  rw [List.count_eq_zero]
  intro hMem
  rcases List.mem_filterMap.mp hMem with
    ⟨effect, hEffect, hWrite⟩
  cases session with
  | localSession s =>
      simp only [onChannel, writeAndFlush,
        LocalSession.writeAndFlush] at hEffect
      split_ifs at hEffect
      · rw [List.mem_singleton.mp hEffect] at hWrite
        cases hWrite
        rcases hOff with hOff | hOther
        · simp [isOn] at hOff
        · exact hOther rfl
      · cases hEffect
  | remoteSession s =>
      simp only [onChannel, writeAndFlush,
        RemoteSession.writeAndFlush,
        PeerSender.writeAndFlush] at hEffect
      split at hEffect
      · cases hEffect
      · split_ifs at hEffect
        · rw [List.mem_singleton.mp hEffect] at hWrite
          cases hWrite
        · split at hEffect <;>
            rw [List.mem_singleton.mp hEffect] at hWrite <;>
            cases hWrite

/- A session on the channel writes to it once. -/
theorem count_written_self
    (session : ServerSession)
    (node : Node ι)
    (msg : Model)
    (k : Nat) :
    (((session.onChannel true).writeAndFlush node
      msg).effects.filterMap Effect.toClient).count
        (k, msg) = if session.isOn k then 1 else 0 := by
  cases hOn : session.isOn k with
  | false => exact count_written _ _ _ _ _ (.inl hOn)
  | true =>
      cases session with
      | remoteSession s => cases hOn
      | localSession s =>
          simp only [isOn, beq_iff_eq] at hOn
          simp [onChannel, writeAndFlush,
            LocalSession.writeAndFlush, Effect.toClient, hOn]

end ServerSession

namespace Place

variable [DecidableEq ι]
variable {msg : Model}
variable {st : Traffic ι}

theorem handles_iff
    (h : Handling ι) :
    p.handles msg h = true ↔
      h.node = p.home ∧ h.msg = msg := by
  simp [handles]

/- One handling goes on: what it writes is no longer due. -/
theorem account_set
    {st' : Traffic ι}
    {n : Nat}
    {h : Handling ι}
    (hGet : st.handlings[n]? = some h)
    {pc : HandlingPc}
    (writes : List (Nat × Model))
    (hHandlings :
      st'.handlings = st.handlings.set n { h with pc := pc })
    (hWritten : st'.written = st.written ++ writes)
    (hDue :
      p.handles msg h = true →
        p.duePc pc + writes.count (p.channel, msg) =
          p.duePc h.pc)
    (hOther :
      p.handles msg h = false →
        writes.count (p.channel, msg) = 0) :
    (p.account msg).Balances st st' := by
  have hTotal :=
    Account.total_set (p.due msg) hGet { h with pc := pc }
  have hBegun :=
    Account.countP_set_of_eq (q := p.handles msg)
      (b := { h with pc := pc }) hGet rfl
  have hMoved :
      p.due msg { h with pc := pc } +
          writes.count (p.channel, msg) =
        p.due msg h := by
    have hSame :
        p.handles msg { h with pc := pc } =
          p.handles msg h :=
      rfl
    cases hHandles : p.handles msg h with
    | true => simpa [due, hSame, hHandles] using hDue hHandles
    | false =>
        simpa [due, hSame, hHandles] using hOther hHandles
  simp only [Account.Balances, account, hHandlings, hWritten,
    List.count_append, hBegun]
  omega

/- Data begins to be handled: then it is due once. -/
theorem account_new
    (st : Traffic ι)
    {st' : Traffic ι}
    {i : ι}
    {msg' : Model}
    (hHandlings :
      st'.handlings = st.handlings ++ [.new i msg'])
    (hWritten : st'.written = st.written) :
    (p.account msg).Balances st st' := by
  simp only [Account.Balances, account, hHandlings, hWritten,
    Account.total_append, Account.total_singleton,
    List.countP_append, List.countP_singleton, due, duePc,
    Handling.new, dueLookup]
  omega

theorem account_same
    {st' : Traffic ι}
    (hHandlings : st'.handlings = st.handlings)
    (hWritten : st'.written = st.written) :
    (p.account msg).Balances st st' := by
  simp only [Account.Balances, account, hHandlings, hWritten]

omit [DecidableEq ι] in
/- Its node has its own sessions as the ledger has them. -/
theorem own_of_inPlace
    (hInv : st.Inv)
    (hPlace : st.InPlace p) :
    p.Own st.ledger
      (st.cluster.nodes p.home).sessionMap where
  unique := hInv.unique
  homed := hInv.holds.nodes p.home
  held := hPlace.held
  created sid := by simp [Traffic.ledger, hPlace.created]

omit [DecidableEq ι] in
/- Handles on the channel are only found at its node. -/
theorem isOn_elsewhere
    (hTied : st.Tied)
    (hPlace : st.InPlace p)
    {h : Handling ι}
    (hMem : h ∈ st.handlings)
    (hNode : h.node ≠ p.home)
    {session : ServerSession}
    (hHandle : session ∈ h.pc.handles) :
    session.isOn p.channel = false := by
  have hAt := hTied.handles h hMem session hHandle
  cases session with
  | remoteSession s => rfl
  | localSession s =>
      simp only [ServerSession.isOn, beq_eq_false_iff_ne]
      intro hSame
      apply hNode
      have hHome :
          (st.clients s.channel.id).home = h.node :=
        hAt
      rw [← hHome, hSame, hPlace.home]

/- A step of handling data does what is due. -/
theorem account_handle
    (hInv : st.Inv)
    (hTied : st.Tied)
    (hPlace : st.InPlace p)
    (hTo : msg.to_ = p.user)
    {n : Nat}
    {ok writable : Bool}
    (hSpares :
      Traffic.Event.Spares p st (.handle n ok writable)) :
    (p.account msg).Balances st
      (st.handle n ok writable) := by
  rcases st.handle_cases n ok writable with
    hId | ⟨h, hGet, hCase⟩
  · rw [hId]
    exact .refl _ st
  · have hMem := List.mem_of_getElem? hGet
    have hFine :
        p.handles msg h = true →
          ok = true ∧ writable = true ∧
            ∀ session rest,
              h.pc = .writing (session :: rest) →
                ((session.onChannel true).writeAndFlush
                  (st.cluster.nodes h.node)
                  h.msg).thrown = none := by
      intro hHandles
      rw [handles_iff] at hHandles
      exact hSpares h hGet hHandles.1
        (by rw [hHandles.2, hTo])
    rcases hCase with
      ⟨sessions, hPc, hNext⟩ | ⟨pc, hPc, hOk, hNext⟩ |
        ⟨pc, hPc, _, hNext⟩ |
        ⟨session, rest, written, hPc, hWritten, hNext⟩
    all_goals rw [hNext]
    · refine account_set hGet [] rfl
        (List.append_nil _).symm (fun _ => ?_) fun _ => rfl
      simp [hPc, duePc, dueLookup]
    · refine account_set hGet [] rfl
        (List.append_nil _).symm (fun hHandles => ?_)
        fun _ => rfl
      have hSound := (hFine hHandles).1
      rw [hOk] at hSound
      cases hSound
    · refine account_set hGet [] rfl
        (List.append_nil _).symm (fun hHandles => ?_)
        fun _ => rfl
      rw [handles_iff] at hHandles
      have hSparing := hPlace.handlings h hMem hHandles.1
      rw [hPc] at hSparing
      have hStep :=
        Own.dueLookup_step (st.cluster.site p.home)
          (own_of_inPlace hInv hPlace) hPlace.recorded
          hSparing
      rw [hPc, hHandles.1, hHandles.2, hTo]
      exact hStep
    · refine account_set hGet
        (written.effects.filterMap Effect.toClient) rfl rfl
        (fun hHandles => ?_) fun hOther => ?_
      · rcases hFine hHandles with ⟨_, rfl, hNone⟩
        rw [handles_iff] at hHandles
        have hThrown : written.thrown = none := by
          rw [hWritten]
          exact hNone session rest hPc
        have hOnce :=
          session.count_written_self
            (st.cluster.nodes h.node) h.msg p.channel
        rw [← hWritten, hHandles.2] at hOnce
        rw [hOnce, hPc]
        simp [duePc, hThrown, List.countP_cons]
      · rw [hWritten]
        apply ServerSession.count_written
        by_cases hNode : h.node = p.home
        · right
          intro hMsg
          have hHandles := (handles_iff h).mpr ⟨hNode, hMsg⟩
          rw [hOther] at hHandles
          cases hHandles
        · left
          refine isOn_elsewhere hTied hPlace hMem hNode ?_
          rw [hPc]
          exact List.mem_cons_self

/- So does everything that spares the session. -/
theorem account_next
    (clock : Int → String)
    (hInv : st.Inv)
    (hTied : st.Tied)
    (hPlace : st.InPlace p)
    (hTo : msg.to_ = p.user)
    {e : Traffic.Event ι}
    (hSpares : e.Spares p st) :
    (p.account msg).Balances st (st.next clock e) := by
  cases e with
  | data k msg' => exact account_new st rfl rfl
  | arrive n =>
      simp only [Traffic.next, Traffic.arrive]
      split
      case h_1 => exact .refl _ st
      case h_2 packet hGet => exact account_new st rfl rfl
  | handle n ok writable =>
      exact account_handle hInv hTied hPlace hTo hSpares
  | task k n ok =>
      simp only [Traffic.next, Traffic.task]
      split
      case h_1 => exact .refl _ st
      case h_2 => split_ifs <;> exact account_same rfl rfl
  | closing k n ok =>
      simp only [Traffic.next, Traffic.closing]
      split
      case h_1 => exact .refl _ st
      case h_2 => split_ifs <;> exact account_same rfl rfl
  | _ => exact account_same rfl rfl

end Place

namespace Traffic

variable [DecidableEq ι]
variable {before st : Traffic ι}

/-
  A run that spares the session keeps it in its place, and
  accounts for every message to its user.
-/
theorem balances_of_reach
    {clock : Int → String}
    (hReach : Transition.Reach Opened (Step clock) before)
    (hPlace : before.InPlace p)
    (hRun :
      Transition.Reach (fun x => x = before)
        (SparingStep clock p) st)
    {msg : Model}
    (hTo : msg.to_ = p.user) :
    st.InPlace p ∧ (p.account msg).Balances before st := by
  have hAll :=
    Account.balances_of_reach (A := p.account msg)
      (I := fun s =>
        Transition.Reach Opened (Step clock) s ∧ s.InPlace p)
      (by
        rintro s _ ⟨hReached, hIn⟩ ⟨e, hAllowed, hSpares, rfl⟩
        exact ⟨hReached.step ⟨e, hAllowed, rfl⟩,
          hIn.next clock (inv_of_opened hReached)
            (tied_of_reach hReached) hAllowed hSpares⟩)
      (by
        rintro s _ ⟨hReached, hIn⟩ ⟨e, hAllowed, hSpares, rfl⟩
        exact Place.account_next clock
          (inv_of_opened hReached) (tied_of_reach hReached)
          hIn hTo hSpares)
      ⟨hReach, hPlace⟩ hRun
  exact ⟨hAll.1.2, hAll.2⟩

/-
  Once a session is in its place, it stays there in every
  run that spares it, and what its node begins to handle for
  its user is written to its channel exactly once: what is
  written and what is due grow together by what is begun.
-/
theorem arrived_once
    {clock : Int → String}
    (hReach : Transition.Reach Opened (Step clock) before)
    (hPlace : before.InPlace p)
    (hRun :
      Transition.Reach (fun x => x = before)
        (SparingStep clock p) st)
    {msg : Model}
    (hTo : msg.to_ = p.user) :
    st.InPlace p ∧
      st.written.count (p.channel, msg) +
          Account.total (p.due msg) st.handlings +
          before.handlings.countP (p.handles msg) =
        before.written.count (p.channel, msg) +
          Account.total (p.due msg) before.handlings +
          st.handlings.countP (p.handles msg) :=
  balances_of_reach hReach hPlace hRun hTo

------------------------------------------------------------
-- A Run
------------------------------------------------------------

/- Login tasks of one channel leave the others alone. -/
theorem task_clients_ne
    (clock : Int → String)
    (st : Traffic ι)
    {k k' : Nat}
    (hOther : k' ≠ k)
    (n : Nat)
    (ok : Bool) :
    (st.task clock k n ok).clients k' = st.clients k' := by
  unfold Traffic.task
  dsimp only
  split
  · rfl
  · split_ifs <;> simp [setClient, hOther]

omit [DecidableEq ι] in
/- Writing to sessions of the node itself does not throw. -/
theorem spares_handle
    {n : Nat}
    (hLocal :
      (st.handlings[n]?).all
        (fun h => h.pc.handles.all ServerSession.isLocal) =
          true) :
    Event.Spares p st (.handle n true true) := by
  intro h hGet _ _
  refine ⟨rfl, rfl, fun session rest hPc => ?_⟩
  rw [hGet, Option.all_some, hPc] at hLocal
  have hFirst :=
    List.all_eq_true.mp hLocal session List.mem_cons_self
  cases session with
  | localSession s => rfl
  | remoteSession s => cases hFirst

/- The login of the first channel is done. -/
def placed : Traffic Bool :=
  (fun st => st.task (fun _ => "0") 0 0 true)^[11] asked

def firstPlace : Place Bool :=
  ⟨"b", "s", 0, true⟩

theorem clients_placed
    {k : Nat}
    (hOther : k ≠ 0) :
    placed.clients k = calm.clients k := by
  refine Function.Iterate.rec
    (fun st : Traffic Bool => st.clients k = calm.clients k)
    ?_ ?_ 11
  · simp [asked, next, Traffic.online, setClient, hOther,
      connected, setNode]
  · intro st hSame
    rw [task_clients_ne _ _ hOther, hSame]

theorem inPlace_placed : placed.InPlace firstPlace where
  recorded :=
    ⟨⟨some "b", [⟨some "b", "s", { id := 1 }⟩], by decide⟩,
      by decide +kernel, by decide +kernel⟩
  held := ⟨⟨⟨0, true⟩, some "b", "s"⟩, by decide +kernel⟩
  home := by decide +kernel
  created := by decide +kernel
  connectHandler := by decide +kernel
  tasks k task hMem := by
    by_cases hFirst : k = 0
    · have hDone :
          (placed.clients 0).tasks = [⟨"b", .returned⟩] := by
        decide +kernel
      rw [hFirst, hDone, List.mem_singleton] at hMem
      rw [hMem]
      trivial
    · rw [clients_placed hFirst] at hMem
      cases hMem
  closings k pc hMem := by
    by_cases hFirst : k = 0
    · have hNone : (placed.clients 0).closings = [] := by
        decide +kernel
      rw [hFirst, hNone] at hMem
      cases hMem
    · rw [clients_placed hFirst] at hMem
      cases hMem
  handlings h hMem := by
    have hNone : placed.handlings.length = 0 := by
      decide +kernel
    rw [List.length_eq_zero_iff.mp hNone] at hMem
    cases hMem

theorem reach_placed :
    Transition.Reach Opened (Step fun _ => "0") placed := by
  have hConnected :
      Transition.Reach Opened (Step fun _ => "0")
        connected :=
    .step (.init ⟨start_calm, fun _ => rfl⟩)
      ⟨.router false { id := 2 }
        (AList.singleton 1 ⟨{ id := 1 }, true, some true⟩),
        trivial, rfl⟩
  have hAsked :
      Transition.Reach Opened (Step fun _ => "0") asked :=
    hConnected.step
      ⟨.online 0 "b" "s", ⟨rfl, fun k => by
        change "s" ∉ []
        simp⟩, rfl⟩
  exact hAsked.iterate
    (fun st => ⟨.task 0 0 true, trivial, rfl⟩) 11

/- Data for its user is read, and handled in some steps. -/
def arriving (n : Nat) : Traffic Bool :=
  (fun st => st.handle 0 true true)^[n]
    (placed.data 0 toFirst)

theorem reach_arriving :
    Transition.Reach (fun x => x = placed)
      (SparingStep (fun _ => "0") firstPlace)
      (arriving 5) := by
  have hRead :
      Transition.Reach (fun x => x = placed)
        (SparingStep (fun _ => "0") firstPlace)
        (arriving 0) :=
    .step (.init rfl) ⟨.data 0 toFirst, rfl, trivial, rfl⟩
  have hStep :
      ∀ n < 5,
        SparingStep (fun _ => "0") firstPlace (arriving n)
          (arriving (n + 1)) := by
    intro n hLess
    refine ⟨.handle 0 true true, trivial, spares_handle ?_,
      Function.iterate_succ_apply' _ _ _⟩
    revert n
    decide +kernel
  exact ((((hRead.step (hStep 0 (by decide))).step
    (hStep 1 (by decide))).step (hStep 2 (by decide))).step
      (hStep 3 (by decide))).step (hStep 4 (by decide))

/- It is written to the channel, once. -/
theorem arrived_once_arriving :
    (arriving 5).written.count
      (firstPlace.channel, toFirst) = 1 := by
  have hArrived :=
    (@arrived_once _ _ _ _ _ _ reach_placed inPlace_placed
      reach_arriving toFirst rfl).2
  have hWritten :
      placed.written.count
        (firstPlace.channel, toFirst) = 0 := by
    decide +kernel
  have hNone : placed.handlings.length = 0 := by
    decide +kernel
  have hDue :
      Account.total (firstPlace.due toFirst)
          (arriving 5).handlings = 0 := by
    decide +kernel
  have hBegun :
      (arriving 5).handlings.countP
          (firstPlace.handles toFirst) = 1 := by
    decide +kernel
  revert hArrived hWritten hNone hDue hBegun
  -- the states themselves need not be computed again
  generalize arriving 5 = after
  generalize placed = before
  intro hArrived hWritten hNone hDue hBegun
  rw [List.length_eq_zero_iff.mp hNone, hWritten, hDue,
    hBegun] at hArrived
  simpa [Account.total] using hArrived

end Traffic

end NettyCluster
