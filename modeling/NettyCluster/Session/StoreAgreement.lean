import NettyCluster.Lib.Transition
import NettyCluster.Session.Cluster

/-
  The handles, counters and records of a cluster agree along
  every serial run.

  Complete operations run one at a time, each on any node:
  logging in a new session, closing a session that was
  logged in, and looking up a user. What was logged in and
  what was closed is kept beside the cluster, and one
  invariant ties it to the session handles of all nodes,
  among them the handles that lookups leave behind, and to
  the records.

  Main declarations:
    * `Serial`, `SerialStep`
    * `Serial.Open`
    * `EntryInv`, `HandleInv`, `SerialInv`
    * `StoresAgree`
    * `serial_storesAgree`
-/

------------------------------------------------------------
-- Serial Runs
------------------------------------------------------------

namespace NettyCluster

variable {ι : Type}

/-
  A cluster, the sessions logged in so far, and those for
  which the closing was called.
-/
structure Serial (ι : Type) where
  cluster : Cluster ι
  added : List (ι × LocalSession)
  closings : List (ι × LocalSession)

/- A session that was logged in on a node and not closed. -/
def Serial.Open
    (st : Serial ι)
    (i : ι)
    (s : LocalSession) : Prop :=
  (i, s) ∈ st.added ∧ (i, s) ∉ st.closings

/- Complete operations, one at a time. -/
inductive SerialStep
    [DecidableEq ι] : Serial ι → Serial ι → Prop where
| add {st i s} (clock : Int → String) :
    (∀ p ∈ st.added, p.2.sessionId ≠ s.sessionId) →
    s.userid ≠ none →
    SerialStep st
      ⟨st.cluster.setSite i
          (SessionManager.add (st.cluster.site i) s
            clock).site,
        (i, s) :: st.added, st.closings⟩
| close {st i s} (clock : Int → String) :
    (i, s) ∈ st.added →
    SerialStep st
      ⟨st.cluster.setSite i
          (SessionManager.closeSession (st.cluster.site i)
            (some s) clock).site,
        st.added, (i, s) :: st.closings⟩
| lookup {st} (i : ι) (u : String) :
    SerialStep st
      ⟨st.cluster.setSite i
          ⟨(SessionManager.getSessionByUserId
              (st.cluster.site i) (some u)).2,
            st.cluster.redis⟩,
        st.added, st.closings⟩

/- Nodes with distinct ids and nothing stored yet. -/
def SerialStart (st : Serial ι) : Prop :=
  Function.Injective st.cluster.id ∧
    (∀ i, (st.cluster.nodes i).sessionMap = ∅ ∧
      (st.cluster.nodes i).wsNode.balance = 0) ∧
    st.cluster.redis = Redis.empty ∧
    st.added = [] ∧ st.closings = []

------------------------------------------------------------
-- Agreement
------------------------------------------------------------

/-
  The outcome of looking up a user on a node: one handle for
  each open session of the user, the session itself on its
  own node and its record with the owner's id elsewhere.
-/
def Resolves
    (st : Serial ι)
    (i : ι)
    (u : String) : Option (List ServerSession) → Prop
| none =>
    ∀ j s, st.Open j s → s.userid ≠ some u
| some sessions =>
    (sessions.map ServerSession.getSessionId).Nodup ∧
    (∀ sid,
      sid ∈ sessions.map ServerSession.getSessionId ↔
        ∃ j s, st.Open j s ∧ s.sessionId = sid ∧
          s.userid = some u) ∧
    ∀ session ∈ sessions, ∀ j s, st.Open j s →
      s.sessionId = session.getSessionId →
        (j = i → session = .localSession s) ∧
        (j ≠ i →
          ∃ r, session = .remoteSession ⟨r⟩ ∧
            r.wsNode.id = st.cluster.id j)

/-
  The handles, the counters and the records agree with the
  sessions that were logged in and not closed. Counters have
  32 bits.
-/
structure StoresAgree (st : Serial ι) : Prop where
  local_iff :
    ∀ i sid s,
      st.cluster.entry i sid = some (.localSession s) ↔
        st.Open i s ∧ s.sessionId = sid
  recorded_iff :
    ∀ u sid,
      (∃ r ∈ UserCacheImpl.records st.cluster.redis
          (some u),
        r.sessionid = sid) ↔
      ∃ r, SessionCacheImpl.get st.cluster.redis sid =
        some r ∧ r.userid = some u
  open_iff :
    ∀ u sid,
      (∃ r, SessionCacheImpl.get st.cluster.redis sid =
        some r ∧ r.userid = some u) ↔
      ∃ i s, st.Open i s ∧ s.sessionId = sid ∧
        s.userid = some u
  owner :
    ∀ i s, st.Open i s →
      (∀ r, SessionCacheImpl.get st.cluster.redis
          s.sessionId = some r →
        r.wsNode.id = st.cluster.id i) ∧
      ∀ r ∈ UserCacheImpl.records st.cluster.redis
          s.userid,
        r.sessionid = s.sessionId →
          r.wsNode.id = st.cluster.id i
  counted : ∀ i, (st.cluster.nodes i).Counted
  balanced_iff :
    ∀ i, (st.cluster.nodes i).Balanced ↔
      SessionMap.localCount
        (st.cluster.nodes i).sessionMap < 2 ^ 31
  no_own_remote :
    ∀ i sid r,
      st.cluster.entry i sid = some (.remoteSession r) →
        r.sessionNodeCache.wsNode.id ≠ st.cluster.id i
  lookup :
    ∀ i u, Resolves st i u
      (SessionManager.getSessionByUserId
        (st.cluster.site i) (some u)).1

/-
  What the handles alone say: they are of sessions that were
  logged in, on their own node and elsewhere.
-/
structure EntryInv
    (c : Cluster ι)
    (added : List (ι × LocalSession)) : Prop where
  unique :
    ∀ p ∈ added, ∀ q ∈ added,
      p.2.sessionId = q.2.sessionId → p = q
  entry_local :
    ∀ i sid s,
      c.entry i sid = some (.localSession s) →
        s.sessionId = sid ∧ (i, s) ∈ added
  entry_remote :
    ∀ i sid r,
      c.entry i sid = some (.remoteSession r) →
        ∃ j s, (j, s) ∈ added ∧ s.sessionId = sid ∧ j ≠ i

/-
  The part of the invariant that does not need every open
  session to be recorded. Handles of other nodes' sessions
  name the owner, and records are of open sessions.
-/
structure HandleInv (st : Serial ι) : Prop extends
    EntryInv st.cluster st.added where
  ids : Function.Injective st.cluster.id
  userid : ∀ p ∈ st.added, p.2.userid ≠ none
  closings_added : ∀ p ∈ st.closings, p ∈ st.added
  open_iff :
    ∀ i s, st.cluster.Open i s ↔ st.Open i s
  owner_remote :
    ∀ i sid r,
      st.cluster.entry i sid = some (.remoteSession r) →
        r.sessionNodeCache.sessionid = sid ∧
        ∀ j s, (j, s) ∈ st.added → s.sessionId = sid →
          r.sessionNodeCache.wsNode.id = st.cluster.id j
  record_open :
    ∀ u r,
      r ∈ UserCacheImpl.records st.cluster.redis (some u) →
        ∃ i s, st.cluster.Open i s ∧
          s.sessionId = r.sessionid ∧ s.userid = some u ∧
          r.wsNode.id = st.cluster.id i
  session_open :
    ∀ sid r,
      SessionCacheImpl.get st.cluster.redis sid = some r →
        ∃ i s, st.cluster.Open i s ∧ s.sessionId = sid ∧
          s.userid = r.userid ∧
          r.wsNode.id = st.cluster.id i
  counted : ∀ i, (st.cluster.nodes i).Counted

/- The invariant of serial runs: all of it is recorded. -/
structure SerialInv (st : Serial ι) : Prop extends
    HandleInv st where
  open_record :
    ∀ i s, st.cluster.Open i s →
      ∃ r ∈ UserCacheImpl.records st.cluster.redis s.userid,
        r.sessionid = s.sessionId
  open_session :
    ∀ i s, st.cluster.Open i s →
      ∃ r, SessionCacheImpl.get st.cluster.redis
        s.sessionId = some r

namespace EntryInv

variable {c : Cluster ι}
variable {added : List (ι × LocalSession)}

/- A session is open where it was logged in, and once. -/
theorem open_added
    (hInv : EntryInv c added)
    {i : ι}
    {s : LocalSession}
    (hOpen : c.Open i s) :
    (i, s) ∈ added :=
  (hInv.entry_local i s.sessionId s hOpen).2

theorem open_unique
    (hInv : EntryInv c added)
    {i j : ι}
    {s t : LocalSession}
    (hOpen : c.Open i s)
    (hOpen' : c.Open j t)
    (hSame : s.sessionId = t.sessionId) :
    i = j ∧ s = t := by
  have hEq := hInv.unique (i, s) (hInv.open_added hOpen)
    (j, t) (hInv.open_added hOpen') hSame
  exact ⟨congrArg Prod.fst hEq, congrArg Prod.snd hEq⟩

/- A session id never seen has no handle anywhere. -/
theorem entry_fresh
    (hInv : EntryInv c added)
    {s : LocalSession}
    (hFresh : ∀ p ∈ added, p.2.sessionId ≠ s.sessionId)
    (j : ι) :
    c.entry j s.sessionId = none := by
  cases hEntry : c.entry j s.sessionId with
  | none => rfl
  | some session =>
      cases session with
      | localSession t =>
          rcases hInv.entry_local j _ t hEntry with
            ⟨hSid, hMem⟩
          exact absurd hSid (hFresh _ hMem)
      | remoteSession r =>
          rcases hInv.entry_remote j _ r hEntry with
            ⟨k, t, hMem, hSid, -⟩
          exact absurd hSid (hFresh _ hMem)

/- A session logged in has its own handle or none. -/
theorem entry_added
    (hInv : EntryInv c added)
    {i : ι}
    {s : LocalSession}
    (hMem : (i, s) ∈ added) :
    c.entry i s.sessionId = none ∨
      c.Open i s := by
  cases hEntry : c.entry i s.sessionId with
  | none => exact Or.inl rfl
  | some session =>
      right
      cases session with
      | localSession t =>
          rcases hInv.entry_local i _ t hEntry with
            ⟨hSid, hMem'⟩
          have hEq := hInv.unique _ hMem' _ hMem hSid
          simp only [Prod.mk.injEq, true_and] at hEq
          rw [Cluster.Open, hEntry, hEq]
      | remoteSession r =>
          rcases hInv.entry_remote i _ r hEntry with
            ⟨j, t, hMem', hSid, hNe⟩
          have hEq := hInv.unique _ hMem' _ hMem hSid
          exact absurd (congrArg Prod.fst hEq) hNe

/- A new session id clashes with no other. -/
theorem unique_cons
    (hInv : EntryInv c added)
    {i : ι}
    {s : LocalSession}
    (hFresh : ∀ p ∈ added, p.2.sessionId ≠ s.sessionId) :
    ∀ p ∈ (i, s) :: added, ∀ q ∈ (i, s) :: added,
      p.2.sessionId = q.2.sessionId → p = q := by
  intro p hMem q hMem' hSame
  rcases List.mem_cons.mp hMem with rfl | hOld <;>
    rcases List.mem_cons.mp hMem' with rfl | hOld'
  · rfl
  · exact absurd hSame.symm (hFresh q hOld')
  · exact absurd hSame (hFresh p hOld)
  · exact hInv.unique p hOld q hOld' hSame

/- Handles that go away do no harm. -/
theorem of_subset
    {c' : Cluster ι}
    (hInv : EntryInv c added)
    (hSubset :
      ∀ i sid session, c'.entry i sid = some session →
        c.entry i sid = some session) :
    EntryInv c' added where
  unique := hInv.unique
  entry_local i sid s hEntry :=
    hInv.entry_local i sid s (hSubset i sid _ hEntry)
  entry_remote i sid r hEntry :=
    hInv.entry_remote i sid r (hSubset i sid _ hEntry)

end EntryInv

namespace SerialInv

variable {st : Serial ι}

theorem start
    (hStart : SerialStart st) :
    SerialInv st := by
  rcases hStart with
    ⟨hIds, hNodes, hRedis, hAdded, hClosings⟩
  have hEntry : ∀ i sid, st.cluster.entry i sid = none := by
    intro i sid
    rw [Cluster.entry, (hNodes i).1]
    rfl
  exact
    { ids := hIds
      unique := by simp [hAdded]
      userid := by simp [hAdded]
      closings_added := by simp [hClosings]
      entry_local := by simp [hEntry]
      entry_remote := by simp [hEntry]
      open_iff := by
        simp [Cluster.Open, Serial.Open, hEntry, hAdded]
      owner_remote := by simp [hEntry]
      record_open := by
        simp [hRedis, UserCacheImpl.records,
          UserCacheImpl.get, Redis.empty]
      open_record := by simp [Cluster.Open, hEntry]
      session_open := by
        simp [hRedis, SessionCacheImpl.get, Redis.empty]
      open_session := by simp [Cluster.Open, hEntry]
      counted := by
        intro i
        rw [Node.Counted, (hNodes i).1, (hNodes i).2]
        rfl }

end SerialInv

end NettyCluster

------------------------------------------------------------
-- Logging In
------------------------------------------------------------

namespace NettyCluster

variable {ι : Type}
variable [DecidableEq ι]

@[simp] theorem userKey_some (u : String) :
    userKey (some u) = u :=
  rfl

section Put

variable {c : Cluster ι}
variable {i : ι}
variable {s : LocalSession}
variable {site : Site ι}
variable
  (hPut :
    site.node.sessionMap =
      (c.nodes i).sessionMap.insert s.sessionId
        (.localSession s))

include hPut

/- A handle that was put is there. -/
theorem Cluster.put_entry_self :
    (c.setSite i site).entry i s.sessionId =
      some (.localSession s) := by
  rw [setSite_entry_self, hPut, AList.lookup_insert]

/- The other handles stay. -/
theorem Cluster.put_entry_ne
    {j : ι}
    {sid : String}
    (hNe : j ≠ i ∨ sid ≠ s.sessionId) :
    (c.setSite i site).entry j sid = c.entry j sid := by
  by_cases hNode : j = i
  · subst hNode
    have hSid : sid ≠ s.sessionId := by
      simpa using hNe
    rw [setSite_entry_self, hPut,
      AList.lookup_insert_ne hSid]
    rfl
  · rw [setSite_entry_ne c i _ hNode]

/- A fresh session is open besides those that were. -/
theorem Cluster.put_open
    (hFresh : ∀ j, c.entry j s.sessionId = none)
    (j : ι)
    (t : LocalSession) :
    (c.setSite i site).Open j t ↔
      (j = i ∧ t = s) ∨ c.Open j t := by
  unfold Open
  by_cases hNe : j ≠ i ∨ t.sessionId ≠ s.sessionId
  · rw [put_entry_ne hPut hNe]
    constructor
    · exact Or.inr
    · rintro (⟨rfl, rfl⟩ | hOpen)
      · simp at hNe
      · exact hOpen
  · push Not at hNe
    rcases hNe with ⟨rfl, hSid⟩
    rw [hSid, put_entry_self hPut, hFresh]
    simp [eq_comm]

/- A fresh session that is put keeps the handles right. -/
theorem EntryInv.put
    {added : List (ι × LocalSession)}
    (hInv : EntryInv c added)
    (hFresh : ∀ p ∈ added, p.2.sessionId ≠ s.sessionId) :
    EntryInv (c.setSite i site) ((i, s) :: added) where
  unique := hInv.unique_cons hFresh
  entry_local j sid t hEntry := by
    by_cases hNe : j ≠ i ∨ sid ≠ s.sessionId
    · rw [Cluster.put_entry_ne hPut hNe] at hEntry
      rcases hInv.entry_local j sid t hEntry with
        ⟨hSid, hMem⟩
      exact ⟨hSid, List.mem_cons_of_mem _ hMem⟩
    · push Not at hNe
      rcases hNe with ⟨rfl, rfl⟩
      have hSelf :=
        (Cluster.put_entry_self hPut).symm.trans hEntry
      cases hSelf
      exact ⟨rfl, List.mem_cons_self⟩
  entry_remote j sid r hEntry := by
    by_cases hNe : j ≠ i ∨ sid ≠ s.sessionId
    · rw [Cluster.put_entry_ne hPut hNe] at hEntry
      rcases hInv.entry_remote j sid r hEntry with
        ⟨k, t, hMem, hRest⟩
      exact ⟨k, t, List.mem_cons_of_mem _ hMem, hRest⟩
    · push Not at hNe
      rcases hNe with ⟨rfl, rfl⟩
      have hSelf :=
        (Cluster.put_entry_self hPut).symm.trans hEntry
      cases hSelf

end Put

section Add

variable (c : Cluster ι)
variable (i : ι)
variable (s : LocalSession)
variable (clock : Int → String)

/- The cluster after a session logged in on a node. -/
def Cluster.add : Cluster ι :=
  c.setSite i (SessionManager.add (c.site i) s clock).site

theorem Cluster.add_id : (c.add i s clock).id = c.id :=
  Cluster.setSite_id c i _ rfl

theorem Cluster.add_entry_self :
    (c.add i s clock).entry i s.sessionId =
      some (.localSession s) :=
  put_entry_self (SessionManager.add_sessionMap ..)

theorem Cluster.add_entry_ne
    {j : ι}
    {sid : String}
    (hNe : j ≠ i ∨ sid ≠ s.sessionId) :
    (c.add i s clock).entry j sid = c.entry j sid :=
  put_entry_ne (SessionManager.add_sessionMap ..) hNe

/- A fresh session is open besides those that were. -/
theorem Cluster.add_open
    (hFresh : ∀ j, c.entry j s.sessionId = none)
    (j : ι)
    (t : LocalSession) :
    (c.add i s clock).Open j t ↔
      (j = i ∧ t = s) ∨ c.Open j t :=
  put_open (SessionManager.add_sessionMap ..) hFresh j t

/- A session that logs in is recorded. -/
theorem Cluster.add_recorded_self :
    ∃ r ∈ UserCacheImpl.records (c.add i s clock).redis
        s.userid,
      r.sessionid = s.sessionId :=
  ⟨SessionManager.nodeCache (c.site i) s,
    (SessionManager.mem_records_add (c.site i) s clock
      s.userid _).mpr (Or.inl ⟨rfl, rfl⟩), rfl⟩

/- The other sessions stay recorded. -/
theorem Cluster.add_recorded_ne
    {uid : Option String}
    {sid : String}
    (hNe : sid ≠ s.sessionId)
    (hRecord :
      ∃ r ∈ UserCacheImpl.records c.redis uid,
        r.sessionid = sid) :
    ∃ r ∈ UserCacheImpl.records (c.add i s clock).redis uid,
      r.sessionid = sid := by
  rcases hRecord with ⟨r, hMem, hSid⟩
  refine ⟨r, ?_, hSid⟩
  rw [add, setSite_redis, SessionManager.mem_records_add]
  exact Or.inr ⟨hMem, fun _ => hSid ▸ hNe⟩

theorem Cluster.add_getSession (sid : String) :
    SessionCacheImpl.get (c.add i s clock).redis sid =
      if sid = s.sessionId then
        some (SessionManager.nodeCache (c.site i) s)
      else SessionCacheImpl.get c.redis sid :=
  SessionManager.add_getSession (c.site i) s clock sid

end Add

namespace HandleInv

variable {st : Serial ι}

/- Logging in a new session keeps the handles right. -/
theorem add
    (hInv : HandleInv st)
    {i : ι}
    {s : LocalSession}
    (clock : Int → String)
    (hFresh : ∀ p ∈ st.added, p.2.sessionId ≠ s.sessionId)
    (hUser : s.userid ≠ none) :
    HandleInv
      ⟨st.cluster.add i s clock, (i, s) :: st.added,
        st.closings⟩ := by
  have hEntries := hInv.entry_fresh hFresh
  have hOpen := st.cluster.add_open i s clock hEntries
  have hId := st.cluster.add_id i s clock
  rcases Option.ne_none_iff_exists'.mp hUser with ⟨v, hV⟩
  constructor
  case toEntryInv =>
    exact EntryInv.put
      (SessionManager.add_sessionMap (st.cluster.site i) s
        clock)
      hInv.toEntryInv hFresh
  case ids => rw [hId]; exact hInv.ids
  case userid =>
    intro p hMem
    rcases List.mem_cons.mp hMem with rfl | hOld
    · exact hUser
    · exact hInv.userid p hOld
  case closings_added =>
    intro p hMem
    exact List.mem_cons_of_mem _ (hInv.closings_added p hMem)
  case open_iff =>
    intro j t
    have hNew : (i, s) ∉ st.closings := fun hMem =>
      hFresh _ (hInv.closings_added _ hMem) rfl
    rw [hOpen, hInv.open_iff]
    simp only [Serial.Open, List.mem_cons, Prod.mk.injEq]
    constructor
    · rintro (⟨rfl, rfl⟩ | ⟨hMem, hLeft⟩)
      · exact ⟨.inl ⟨rfl, rfl⟩, hNew⟩
      · exact ⟨.inr hMem, hLeft⟩
    · rintro ⟨hSelf | hMem, hLeft⟩
      · exact .inl hSelf
      · exact .inr ⟨hMem, hLeft⟩
  case owner_remote =>
    intro j sid r hEntry
    rw [hId]
    have hNe : j ≠ i ∨ sid ≠ s.sessionId := by
      by_contra hSame
      push Not at hSame
      rcases hSame with ⟨rfl, rfl⟩
      rw [Cluster.add_entry_self] at hEntry
      cases hEntry
    rw [Cluster.add_entry_ne _ i s clock hNe] at hEntry
    rcases hInv.owner_remote j sid r hEntry with
      ⟨hSid, hOwner⟩
    refine ⟨hSid, ?_⟩
    intro k t hMem hSame
    rcases List.mem_cons.mp hMem with hNew | hOld
    · cases hNew
      rw [← hSame, hEntries] at hEntry
      cases hEntry
    · exact hOwner k t hOld hSame
  case record_open =>
    intro u r hMem
    rw [Cluster.add, Cluster.setSite_redis,
      SessionManager.mem_records_add] at hMem
    simp only [hOpen, hId]
    rcases hMem with ⟨hKey, rfl⟩ | ⟨hOld, -⟩
    · rw [hV, userKey_some, userKey_some] at hKey
      subst hKey
      exact ⟨i, s, Or.inl ⟨rfl, rfl⟩, rfl, hV, rfl⟩
    · rcases hInv.record_open u r hOld with
        ⟨j, t, hOpenOld, hRest⟩
      exact ⟨j, t, Or.inr hOpenOld, hRest⟩
  case session_open =>
    intro sid r hSession
    rw [Cluster.add_getSession] at hSession
    simp only [hOpen, hId]
    by_cases hSame : sid = s.sessionId
    · rw [if_pos hSame] at hSession
      simp only [Option.some.injEq] at hSession
      subst hSession
      exact ⟨i, s, Or.inl ⟨rfl, rfl⟩, hSame.symm, rfl, rfl⟩
    · rw [if_neg hSame] at hSession
      rcases hInv.session_open sid r hSession with
        ⟨j, t, hOpenOld, hRest⟩
      exact ⟨j, t, Or.inr hOpenOld, hRest⟩
  case counted =>
    intro j
    by_cases hNode : j = i
    · subst hNode
      rw [Cluster.add, Cluster.setSite_nodes_self]
      exact SessionManager.add_counted clock
        (hInv.counted j) (hEntries j)
    · rw [Cluster.add, Cluster.setSite_nodes_ne _ i _ hNode]
      exact hInv.counted j

end HandleInv

namespace SerialInv

variable {st : Serial ι}

/- Logging in a new session keeps the invariant. -/
theorem add
    (hInv : SerialInv st)
    {i : ι}
    {s : LocalSession}
    (clock : Int → String)
    (hFresh : ∀ p ∈ st.added, p.2.sessionId ≠ s.sessionId)
    (hUser : s.userid ≠ none) :
    SerialInv
      ⟨st.cluster.add i s clock, (i, s) :: st.added,
        st.closings⟩ := by
  have hHandles :=
    hInv.toHandleInv.add (i := i) clock hFresh hUser
  have hOpen := st.cluster.add_open i s clock
    (hInv.entry_fresh hFresh)
  refine { hHandles with
    open_record := ?_
    open_session := ?_ }
  · intro j t hOpenT
    rcases (hOpen j t).mp hOpenT with ⟨rfl, rfl⟩ | hOld
    · exact st.cluster.add_recorded_self j t clock
    · exact st.cluster.add_recorded_ne i s clock
        (hFresh _ (hInv.open_added hOld))
        (hInv.open_record j t hOld)
  · intro j t hOpenT
    dsimp only
    rw [Cluster.add_getSession]
    rcases (hOpen j t).mp hOpenT with ⟨rfl, rfl⟩ | hOld
    · exact ⟨_, if_pos rfl⟩
    · rw [if_neg (hFresh _ (hInv.open_added hOld))]
      exact hInv.open_session j t hOld

end SerialInv

end NettyCluster

------------------------------------------------------------
-- Logging Out
------------------------------------------------------------

namespace NettyCluster

variable {ι : Type}
variable [DecidableEq ι]

section Close

variable (c : Cluster ι)
variable (i : ι)
variable (s : LocalSession)
variable (clock : Int → String)

/- The cluster after a session was closed on a node. -/
def Cluster.close : Cluster ι :=
  c.setSite i
    (SessionManager.closeSession (c.site i) (some s)
      clock).site

theorem Cluster.close_eq :
    c.close i s clock =
      c.setSite i
        (SessionManager.remove (c.site i) s.sessionId) :=
  rfl

/- Closing a session without a handle does nothing. -/
theorem Cluster.close_none
    (hNone : c.entry i s.sessionId = none) :
    c.close i s clock = c := by
  have hLookup :
      (c.site i).node.sessionMap.lookup s.sessionId =
        none := hNone
  rw [close_eq, SessionManager.remove_none hLookup,
    setSite_site]

theorem Cluster.close_id : (c.close i s clock).id = c.id :=
  Cluster.setSite_id c i _
    (SessionManager.remove_id (c.site i) s.sessionId)

variable {c i s}

theorem Cluster.close_entry_self
    (hOpen : c.Open i s) :
    (c.close i s clock).entry i s.sessionId = none := by
  rw [close_eq, setSite_entry_self,
    SessionManager.remove_sessionMap hOpen.lookup,
    AList.lookup_erase]

theorem Cluster.close_entry_ne
    (hOpen : c.Open i s)
    {j : ι}
    {sid : String}
    (hNe : j ≠ i ∨ sid ≠ s.sessionId) :
    (c.close i s clock).entry j sid = c.entry j sid := by
  by_cases hNode : j = i
  · subst hNode
    have hSid : sid ≠ s.sessionId := by
      simpa using hNe
    rw [close_eq, setSite_entry_self,
      SessionManager.remove_sessionMap hOpen.lookup,
      AList.lookup_erase_ne hSid]
    rfl
  · rw [close_eq, setSite_entry_ne c i _ hNode]

/- A handle after a closing was there before. -/
theorem Cluster.entry_of_close
    {j : ι}
    {sid : String}
    {session : ServerSession}
    (hEntry :
      (c.close i s clock).entry j sid = some session) :
    c.entry j sid = some session := by
  by_cases hNode : j = i
  · subst hNode
    rw [close_eq, setSite_entry_self] at hEntry
    cases hLookup :
        (c.site j).node.sessionMap.lookup s.sessionId with
    | none =>
        rw [SessionManager.remove_none hLookup] at hEntry
        exact hEntry
    | some handle =>
        rw [SessionManager.remove_sessionMap hLookup]
          at hEntry
        by_cases hSid : sid = s.sessionId
        · rw [hSid, AList.lookup_erase] at hEntry
          cases hEntry
        · rw [AList.lookup_erase_ne hSid] at hEntry
          exact hEntry
  · rwa [close_eq, setSite_entry_ne c i _ hNode] at hEntry

/- The other sessions stay open. -/
theorem Cluster.close_open
    (hOpen : c.Open i s)
    (j : ι)
    (t : LocalSession) :
    (c.close i s clock).Open j t ↔
      c.Open j t ∧ (j ≠ i ∨ t.sessionId ≠ s.sessionId) := by
  unfold Open
  by_cases hNe : j ≠ i ∨ t.sessionId ≠ s.sessionId
  · rw [close_entry_ne clock hOpen hNe]
    simp [hNe]
  · simp only [hNe, and_false, iff_false]
    push Not at hNe
    rcases hNe with ⟨rfl, hSid⟩
    rw [hSid, close_entry_self clock hOpen]
    simp

/- The other sessions stay recorded. -/
theorem Cluster.close_recorded_ne
    (hOpen : c.Open i s)
    {uid : Option String}
    {sid : String}
    (hNe : sid ≠ s.sessionId)
    (hRecord :
      ∃ r ∈ UserCacheImpl.records c.redis uid,
        r.sessionid = sid) :
    ∃ r ∈ UserCacheImpl.records (c.close i s clock).redis
        uid,
      r.sessionid = sid := by
  rcases hRecord with ⟨r, hMem, hSid⟩
  refine ⟨r, ?_, hSid⟩
  rw [close_eq, setSite_redis,
    SessionManager.mem_records_remove hOpen.lookup]
  exact ⟨hMem, fun _ => hSid ▸ hNe⟩

theorem Cluster.close_getSession
    (hOpen : c.Open i s)
    (sid : String) :
    SessionCacheImpl.get (c.close i s clock).redis sid =
      if sid = s.sessionId then none
      else SessionCacheImpl.get c.redis sid := by
  rw [close_eq, setSite_redis,
    SessionManager.remove_getSession hOpen.lookup]
  rfl

end Close

omit [DecidableEq ι] in
/- A session without a handle is not the open one. -/
theorem Cluster.Open.ne_of_none
    {c : Cluster ι}
    {i j : ι}
    {s t : LocalSession}
    (hOpen : c.Open j t)
    (hNone : c.entry i s.sessionId = none) :
    (j, t) ≠ (i, s) := by
  rintro ⟨rfl, rfl⟩
  rw [Cluster.Open, hNone] at hOpen
  cases hOpen

/- A session that is closed is the only one affected. -/
theorem EntryInv.close_open_iff
    {c : Cluster ι}
    {added : List (ι × LocalSession)}
    (hInv : EntryInv c added)
    {i : ι}
    {s : LocalSession}
    (clock : Int → String)
    (hMem : (i, s) ∈ added)
    (j : ι)
    (t : LocalSession) :
    (c.close i s clock).Open j t ↔
      c.Open j t ∧ (j, t) ≠ (i, s) := by
  rcases hInv.entry_added hMem with hNone | hOpenS
  · rw [Cluster.close_none _ i s clock hNone]
    exact ⟨fun hOpen => ⟨hOpen, hOpen.ne_of_none hNone⟩,
      And.left⟩
  · rw [Cluster.close_open clock hOpenS]
    refine and_congr_right fun hOpen => ?_
    constructor
    · rintro hNe ⟨rfl, rfl⟩
      simp at hNe
    · intro hNe
      by_contra hSame
      push Not at hSame
      rcases hInv.open_unique hOpen hOpenS hSame.2 with
        ⟨rfl, rfl⟩
      exact hNe rfl

/- What is open after a closing is another session. -/
theorem EntryInv.open_of_close
    {c : Cluster ι}
    {added : List (ι × LocalSession)}
    (hInv : EntryInv c added)
    {i j : ι}
    {s t : LocalSession}
    (clock : Int → String)
    (hMem : (i, s) ∈ added)
    (hOpenT : (c.close i s clock).Open j t) :
    c.Open j t ∧ t.sessionId ≠ s.sessionId := by
  rcases (hInv.close_open_iff clock hMem j t).mp hOpenT with
    ⟨hOld, hNe⟩
  exact ⟨hOld, fun hSame =>
    hNe (hInv.unique _ (hInv.open_added hOld) _ hMem hSame)⟩

namespace HandleInv

variable {st : Serial ι}

/- Closing a session keeps the handles right. -/
theorem close
    (hInv : HandleInv st)
    {i : ι}
    {s : LocalSession}
    (clock : Int → String)
    (hMem : (i, s) ∈ st.added) :
    HandleInv
      ⟨st.cluster.close i s clock, st.added,
        (i, s) :: st.closings⟩ := by
  have hOpen := hInv.close_open_iff clock hMem
  have hId := st.cluster.close_id i s clock
  constructor
  case toEntryInv =>
    exact hInv.of_subset fun _ _ _ hEntry =>
      Cluster.entry_of_close clock hEntry
  case ids => rw [hId]; exact hInv.ids
  case userid => exact hInv.userid
  case closings_added =>
    intro p hClosed
    rcases List.mem_cons.mp hClosed with rfl | hOld
    · exact hMem
    · exact hInv.closings_added p hOld
  case open_iff =>
    intro j t
    rw [hOpen, hInv.open_iff]
    simp only [Serial.Open, List.mem_cons, not_or, and_assoc,
      ne_eq]
    exact and_congr_right fun _ => and_comm
  case owner_remote =>
    intro j sid r hEntry
    rw [hId]
    exact hInv.owner_remote j sid r
      (Cluster.entry_of_close clock hEntry)
  case record_open =>
    intro u r hRecord
    simp only [hOpen, hId]
    rcases hInv.entry_added hMem with hNone | hOpenS
    · rw [Cluster.close_none _ i s clock hNone] at hRecord
      rcases hInv.record_open u r hRecord with
        ⟨j, t, hOpenT, hRest⟩
      exact ⟨j, t, ⟨hOpenT, hOpenT.ne_of_none hNone⟩, hRest⟩
    · rw [Cluster.close_eq, Cluster.setSite_redis,
        SessionManager.mem_records_remove hOpenS.lookup]
        at hRecord
      rcases hInv.record_open u r hRecord.1 with
        ⟨j, t, hOpenT, hSid, hUser, hOwner⟩
      refine ⟨j, t, ⟨hOpenT, ?_⟩, hSid, hUser, hOwner⟩
      rintro ⟨rfl, rfl⟩
      exact hRecord.2 (by rw [← hUser]; rfl) hSid.symm
  case session_open =>
    intro sid r hSession
    simp only [hOpen, hId]
    rcases hInv.entry_added hMem with hNone | hOpenS
    · rw [Cluster.close_none _ i s clock hNone] at hSession
      rcases hInv.session_open sid r hSession with
        ⟨j, t, hOpenT, hRest⟩
      exact ⟨j, t, ⟨hOpenT, hOpenT.ne_of_none hNone⟩, hRest⟩
    · rw [Cluster.close_getSession clock hOpenS] at hSession
      split_ifs at hSession with hSame
      rcases hInv.session_open sid r hSession with
        ⟨j, t, hOpenT, hSid, hRest⟩
      refine ⟨j, t, ⟨hOpenT, ?_⟩, hSid, hRest⟩
      rintro ⟨rfl, rfl⟩
      exact hSame hSid.symm
  case counted =>
    intro j
    rcases hInv.entry_added hMem with hNone | hOpenS
    · rw [Cluster.close_none _ i s clock hNone]
      exact hInv.counted j
    · by_cases hNode : j = i
      · subst hNode
        rw [Cluster.close_eq, Cluster.setSite_nodes_self]
        exact SessionManager.remove_counted (hInv.counted j)
          hOpenS
      · rw [Cluster.close_eq,
          Cluster.setSite_nodes_ne _ i _ hNode]
        exact hInv.counted j

end HandleInv

namespace SerialInv

variable {st : Serial ι}

/- Closing a session keeps the invariant. -/
theorem close
    (hInv : SerialInv st)
    {i : ι}
    {s : LocalSession}
    (clock : Int → String)
    (hMem : (i, s) ∈ st.added) :
    SerialInv
      ⟨st.cluster.close i s clock, st.added,
        (i, s) :: st.closings⟩ := by
  have hHandles := hInv.toHandleInv.close clock hMem
  rcases hInv.entry_added hMem with hNone | hOpenS
  · refine { hHandles with
      open_record := ?_
      open_session := ?_ }
    all_goals
      dsimp only
      rw [Cluster.close_none _ i s clock hNone]
    · exact hInv.open_record
    · exact hInv.open_session
  · refine { hHandles with
      open_record := ?_
      open_session := ?_ }
    · intro j t hOpenT
      rcases hInv.open_of_close clock hMem hOpenT with
        ⟨hOld, hNe⟩
      exact Cluster.close_recorded_ne clock hOpenS hNe
        (hInv.open_record j t hOld)
    · intro j t hOpenT
      rcases hInv.open_of_close clock hMem hOpenT with
        ⟨hOld, hNe⟩
      dsimp only
      rw [Cluster.close_getSession clock hOpenS,
        if_neg hNe]
      exact hInv.open_session j t hOld

end SerialInv

end NettyCluster

------------------------------------------------------------
-- Looking Up a User
------------------------------------------------------------

namespace NettyCluster

variable {ι : Type}
variable [DecidableEq ι]

section Lookup

variable (c : Cluster ι)
variable (i : ι)
variable (u : String)

/- The cluster after a user was looked up on a node. -/
def Cluster.lookup : Cluster ι :=
  c.setSite i
    ⟨(SessionManager.getSessionByUserId (c.site i)
        (some u)).2,
      c.redis⟩

theorem Cluster.lookup_id : (c.lookup i u).id = c.id :=
  Cluster.setSite_id c i _
    (congrArg WsNode.id
      (SessionManager.getSessionByUserId_wsNode (c.site i)
        (some u)))

/- Handles that are there stay. -/
theorem Cluster.lookup_entry_some
    {j : ι}
    {sid : String}
    {session : ServerSession}
    (hEntry : c.entry j sid = some session) :
    (c.lookup i u).entry j sid = some session := by
  by_cases hNode : j = i
  · subst hNode
    have hLookup :
        (c.site j).node.sessionMap.lookup sid =
          some session := hEntry
    rw [lookup, setSite_entry_self,
      SessionManager.getSessionByUserId_lookup, hLookup]
  · rw [lookup, setSite_entry_ne c i _ hNode, hEntry]

/- A handle was there, or is made from a user's record. -/
theorem Cluster.entry_of_lookup
    {j : ι}
    {sid : String}
    {session : ServerSession}
    (hEntry : (c.lookup i u).entry j sid = some session) :
    c.entry j sid = some session ∨
      (j = i ∧ c.entry j sid = none ∧
        ∃ r ∈ UserCacheImpl.records c.redis (some u),
          r.sessionid = sid ∧
            session = .remoteSession ⟨r⟩) := by
  by_cases hNode : j = i
  · subst hNode
    rw [lookup, setSite_entry_self,
      SessionManager.getSessionByUserId_lookup] at hEntry
    cases hOld : (c.site j).node.sessionMap.lookup sid with
    | some session' =>
        left
        simp only [hOld] at hEntry
        exact hOld.trans hEntry
    | none =>
        right
        simp only [hOld, Option.map_eq_some_iff] at hEntry
        rcases hEntry with ⟨r, hFind, hSession⟩
        have hSid := List.find?_some hFind
        exact ⟨rfl, hOld, r,
          List.mem_of_find?_eq_some hFind,
          by simpa using hSid, hSession.symm⟩
  · left
    rw [lookup, setSite_entry_ne c i _ hNode] at hEntry
    exact hEntry

/- No session is opened or closed. -/
theorem Cluster.lookup_open
    (j : ι)
    (t : LocalSession) :
    (c.lookup i u).Open j t ↔ c.Open j t := by
  constructor
  · intro hOpen
    rcases c.entry_of_lookup i u hOpen with
      hOld | ⟨-, -, r, -, -, hSession⟩
    · exact hOld
    · simp at hSession
  · exact c.lookup_entry_some i u

end Lookup

/- Lookups make handles of sessions of other nodes. -/
theorem EntryInv.lookup
    {c : Cluster ι}
    {added : List (ι × LocalSession)}
    (hInv : EntryInv c added)
    (i : ι)
    (u : String)
    (hRecord :
      ∀ r ∈ UserCacheImpl.records c.redis (some u),
        ∃ j t, c.Open j t ∧ t.sessionId = r.sessionid) :
    EntryInv (c.lookup i u) added where
  unique := hInv.unique
  entry_local j sid t hEntry := by
    rcases c.entry_of_lookup i u hEntry with
      hOld | ⟨-, -, r, -, -, hSession⟩
    · exact hInv.entry_local j sid t hOld
    · cases hSession
  entry_remote j sid r hEntry := by
    rcases c.entry_of_lookup i u hEntry with
      hOld | ⟨rfl, hNone, record, hMem, hSid, -⟩
    · exact hInv.entry_remote j sid r hOld
    · rcases hRecord record hMem with ⟨k, t, hOpenT, hSame⟩
      refine ⟨k, t, hInv.open_added hOpenT,
        hSame.trans hSid, ?_⟩
      rintro rfl
      rw [Cluster.Open, hSame, hSid, hNone] at hOpenT
      cases hOpenT

namespace HandleInv

variable {st : Serial ι}

/- Looking up a user keeps the handles right. -/
theorem lookup
    (hInv : HandleInv st)
    (i : ι)
    (u : String) :
    HandleInv
      ⟨st.cluster.lookup i u, st.added, st.closings⟩ := by
  have hOpen := st.cluster.lookup_open i u
  have hId := st.cluster.lookup_id i u
  constructor
  case toEntryInv =>
    apply hInv.toEntryInv.lookup
    intro r hMem
    rcases hInv.record_open u r hMem with
      ⟨j, t, hOpenT, hSid, -⟩
    exact ⟨j, t, hOpenT, hSid⟩
  case ids => rw [hId]; exact hInv.ids
  case userid => exact hInv.userid
  case closings_added => exact hInv.closings_added
  case open_iff =>
    intro j t
    rw [hOpen]
    exact hInv.open_iff j t
  case owner_remote =>
    intro j sid r hEntry
    rw [hId]
    rcases st.cluster.entry_of_lookup i u hEntry with
      hOld | ⟨rfl, -, record, hMem, hSid, hSession⟩
    · exact hInv.owner_remote j sid r hOld
    · cases hSession
      refine ⟨hSid, ?_⟩
      intro k t hAdded hSame
      rcases hInv.record_open u record hMem with
        ⟨k', t', hOpenT, hSid', -, hOwner⟩
      have hEq := hInv.unique _ (hInv.open_added hOpenT) _
        hAdded (hSid'.trans (hSid.trans hSame.symm))
      cases hEq
      exact hOwner
  case record_open =>
    intro v r hMem
    simp only [hOpen, hId]
    exact hInv.record_open v r hMem
  case session_open =>
    intro sid r hSession
    simp only [hOpen, hId]
    exact hInv.session_open sid r hSession
  case counted =>
    intro j
    by_cases hNode : j = i
    · subst hNode
      rw [Cluster.lookup, Cluster.setSite_nodes_self]
      exact SessionManager.getSessionByUserId_counted _
        (hInv.counted j)
    · rw [Cluster.lookup,
        Cluster.setSite_nodes_ne _ i _ hNode]
      exact hInv.counted j

end HandleInv

namespace SerialInv

variable {st : Serial ι}

/- Looking up a user keeps the invariant. -/
theorem lookup
    (hInv : SerialInv st)
    (i : ι)
    (u : String) :
    SerialInv
      ⟨st.cluster.lookup i u, st.added, st.closings⟩ := by
  have hHandles := hInv.toHandleInv.lookup i u
  have hOpen := st.cluster.lookup_open i u
  refine { hHandles with
    open_record := ?_
    open_session := ?_ }
  · intro j t hOpenT
    exact hInv.open_record j t ((hOpen j t).mp hOpenT)
  · intro j t hOpenT
    exact hInv.open_session j t ((hOpen j t).mp hOpenT)

/- Every serial step keeps the invariant. -/
theorem step
    {st' : Serial ι}
    (hInv : SerialInv st)
    (hStep : SerialStep st st') :
    SerialInv st' := by
  cases hStep with
  | add clock hFresh hUser =>
      exact hInv.add clock hFresh hUser
  | close clock hMem => exact hInv.close clock hMem
  | lookup i u => exact hInv.lookup i u

end SerialInv

end NettyCluster

------------------------------------------------------------
-- Agreement in Every Reachable State
------------------------------------------------------------

namespace NettyCluster

variable {ι : Type}

namespace HandleInv

variable {st : Serial ι}

/- The handle for a record has the record's session id. -/
theorem getSessionId_handle
    (hInv : HandleInv st)
    (i : ι)
    (r : SessionNodeCache) :
    (SessionManager.handle (st.cluster.nodes i).sessionMap
      r).getSessionId = r.sessionid := by
  unfold SessionManager.handle
  cases hEntry :
      (st.cluster.nodes i).sessionMap.lookup r.sessionid with
  | none => rfl
  | some session =>
      cases session with
      | localSession t =>
          exact (hInv.entry_local i _ t hEntry).1
      | remoteSession r' =>
          exact (hInv.owner_remote i _ r' hEntry).1

/- The handle for the record of an open session. -/
theorem handle_open
    (hInv : HandleInv st)
    {u : String}
    {r : SessionNodeCache}
    (hRecord :
      r ∈ UserCacheImpl.records st.cluster.redis (some u))
    (i : ι)
    {j : ι}
    {s : LocalSession}
    (hOpen : st.cluster.Open j s)
    (hSid : s.sessionId = r.sessionid) :
    let session := SessionManager.handle
      (st.cluster.nodes i).sessionMap r
    (j = i → session = .localSession s) ∧
      (j ≠ i →
        ∃ r', session = .remoteSession ⟨r'⟩ ∧
          r'.wsNode.id = st.cluster.id j) := by
  unfold SessionManager.handle
  refine ⟨?_, ?_⟩
  · rintro rfl
    have hEntry :
        (st.cluster.nodes j).sessionMap.lookup
          r.sessionid = some (.localSession s) := by
      rw [← hSid]
      exact hOpen
    rw [hEntry]
    rfl
  · intro hNe
    cases hEntry :
        (st.cluster.nodes i).sessionMap.lookup
          r.sessionid with
    | none =>
        rcases hInv.record_open u r hRecord with
          ⟨k, t, hOpenT, hSame, -, hOwner⟩
        have hEq := hInv.open_unique hOpenT hOpen
          (hSame.trans hSid.symm)
        exact ⟨r, rfl, by rw [hOwner, hEq.1]⟩
    | some session =>
        cases session with
        | localSession t =>
            rcases hInv.entry_local i _ t hEntry with
              ⟨hSame, hMem⟩
            have hEq := hInv.unique _ hMem _
              (hInv.open_added hOpen)
              (hSame.trans hSid.symm)
            exact absurd (congrArg Prod.fst hEq).symm hNe
        | remoteSession r' =>
            exact ⟨r'.sessionNodeCache, rfl,
              (hInv.owner_remote i _ r' hEntry).2 j s
                (hInv.open_added hOpen) hSid⟩

/- A lookup gives the handles of what is recorded. -/
theorem getSessionByUserId_records
    (c : Cluster ι)
    (i : ι)
    {u : String}
    (hSome : UserCacheImpl.records c.redis (some u) ≠ []) :
    (SessionManager.getSessionByUserId (c.site i)
      (some u)).1 =
        some ((UserCacheImpl.records c.redis
          (some u)).map (SessionManager.handle
            (c.nodes i).sessionMap)) := by
  rw [SessionManager.getSessionByUserId_eq]
  simp [Cluster.site, hSome]

end HandleInv

namespace SerialInv

variable {st : Serial ι}

/- A lookup returns one handle for each open session. -/
theorem resolves
    (hInv : SerialInv st)
    (i : ι)
    (u : String) :
    Resolves st i u
      (SessionManager.getSessionByUserId (st.cluster.site i)
        (some u)).1 := by
  by_cases hEmpty :
      UserCacheImpl.records st.cluster.redis (some u) = []
  · have hNull :
        (SessionManager.getSessionByUserId
          (st.cluster.site i) (some u)).1 = none := by
      rw [SessionManager.getSessionByUserId_eq]
      simp [Cluster.site, hEmpty]
    rw [hNull]
    intro j s hOpen hUser
    rcases hInv.open_record j s
        ((hInv.open_iff j s).mpr hOpen) with ⟨r, hMem, -⟩
    rw [hUser, hEmpty] at hMem
    simp at hMem
  · have hHandles :
        (SessionManager.getSessionByUserId
          (st.cluster.site i) (some u)).1 =
          some ((UserCacheImpl.records st.cluster.redis
            (some u)).map (SessionManager.handle
              (st.cluster.nodes i).sessionMap)) :=
      HandleInv.getSessionByUserId_records st.cluster i
        hEmpty
    have hSids :
        ((UserCacheImpl.records st.cluster.redis
          (some u)).map (SessionManager.handle
            (st.cluster.nodes i).sessionMap)).map
              ServerSession.getSessionId =
          sids (UserCacheImpl.records st.cluster.redis
            (some u)) := by
      rw [List.map_map, sids]
      exact List.map_congr_left fun r _ =>
        hInv.getSessionId_handle i r
    rw [hHandles]
    refine ⟨?_, ?_, ?_⟩
    · rw [hSids]
      exact UserCacheImpl.nodup_records st.cluster.redis
        (some u)
    · intro sid
      rw [hSids, sids, List.mem_map]
      constructor
      · intro hRecord
        rcases hRecord with ⟨r, hMem, rfl⟩
        rcases hInv.record_open u r hMem with
          ⟨j, s, hOpen, hSid, hUser, -⟩
        exact ⟨j, s, (hInv.open_iff j s).mp hOpen, hSid,
          hUser⟩
      · intro hSession
        rcases hSession with ⟨j, s, hOpen, rfl, hUser⟩
        rw [← hUser]
        exact hInv.open_record j s
          ((hInv.open_iff j s).mpr hOpen)
    · intro session hMem j s hOpen hSid
      rcases List.mem_map.mp hMem with ⟨r, hRecord, rfl⟩
      rw [hInv.getSessionId_handle i r] at hSid
      exact hInv.handle_open hRecord i
        ((hInv.open_iff j s).mpr hOpen) hSid

/- Recorded sessions are the open ones, as sessions. -/
theorem session_iff
    (hInv : SerialInv st)
    (u sid : String) :
    (∃ r, SessionCacheImpl.get st.cluster.redis sid =
        some r ∧ r.userid = some u) ↔
      ∃ i s, st.Open i s ∧ s.sessionId = sid ∧
        s.userid = some u := by
  constructor
  · intro hRecord
    rcases hRecord with ⟨r, hSession, hUser⟩
    rcases hInv.session_open sid r hSession with
      ⟨i, s, hOpen, hSid, hSame, -⟩
    exact ⟨i, s, (hInv.open_iff i s).mp hOpen, hSid,
      hSame.trans hUser⟩
  · intro hSession
    rcases hSession with ⟨i, s, hAdded, rfl, hUser⟩
    have hOpen := (hInv.open_iff i s).mpr hAdded
    rcases hInv.open_session i s hOpen with ⟨r, hSession⟩
    rcases hInv.session_open _ r hSession with
      ⟨j, t, hOpenT, hSid, hSame, -⟩
    have hEq := hInv.open_unique hOpenT hOpen hSid
    refine ⟨r, hSession, ?_⟩
    rw [← hSame, hEq.2, hUser]

/- And as members of their users' records. -/
theorem recorded_iff
    (hInv : SerialInv st)
    (u sid : String) :
    (∃ r ∈ UserCacheImpl.records st.cluster.redis (some u),
        r.sessionid = sid) ↔
      ∃ i s, st.Open i s ∧ s.sessionId = sid ∧
        s.userid = some u := by
  constructor
  · intro hRecord
    rcases hRecord with ⟨r, hMem, rfl⟩
    rcases hInv.record_open u r hMem with
      ⟨i, s, hOpen, hSid, hUser, -⟩
    exact ⟨i, s, (hInv.open_iff i s).mp hOpen, hSid, hUser⟩
  · intro hSession
    rcases hSession with ⟨i, s, hAdded, rfl, hUser⟩
    rw [← hUser]
    exact hInv.open_record i s
      ((hInv.open_iff i s).mpr hAdded)

/- Both records of an open session name its node. -/
theorem owner
    (hInv : SerialInv st)
    {i : ι}
    {s : LocalSession}
    (hAdded : st.Open i s) :
    (∀ r, SessionCacheImpl.get st.cluster.redis
        s.sessionId = some r →
      r.wsNode.id = st.cluster.id i) ∧
      ∀ r ∈ UserCacheImpl.records st.cluster.redis s.userid,
        r.sessionid = s.sessionId →
          r.wsNode.id = st.cluster.id i := by
  have hOpen := (hInv.open_iff i s).mpr hAdded
  refine ⟨?_, ?_⟩
  · intro r hSession
    rcases hInv.session_open _ r hSession with
      ⟨j, t, hOpenT, hSid, -, hOwner⟩
    rw [hOwner, (hInv.open_unique hOpenT hOpen hSid).1]
  · intro r hMem hSid
    rcases Option.ne_none_iff_exists'.mp
        (hInv.userid _ hAdded.1) with
      ⟨u, hUser⟩
    rw [hUser] at hMem
    rcases hInv.record_open u r hMem with
      ⟨j, t, hOpenT, hSame, -, hOwner⟩
    rw [hOwner,
      (hInv.open_unique hOpenT hOpen (hSame.trans hSid)).1]

/- The invariant gives the agreement of the stores. -/
theorem storesAgree
    (hInv : SerialInv st) :
    StoresAgree st := by
  constructor
  case local_iff =>
    intro i sid s
    rw [← hInv.open_iff]
    constructor
    · intro hEntry
      have hSid := (hInv.entry_local i sid s hEntry).1
      rw [Cluster.Open, hSid]
      exact ⟨hEntry, rfl⟩
    · rintro ⟨hOpen, rfl⟩
      exact hOpen
  case recorded_iff =>
    intro u sid
    rw [hInv.recorded_iff, hInv.session_iff]
  case open_iff => exact hInv.session_iff
  case owner => exact fun i s hAdded => hInv.owner hAdded
  case counted => exact hInv.counted
  case balanced_iff =>
    exact fun i => (hInv.counted i).balanced_iff
  case no_own_remote =>
    intro i sid r hEntry hOwn
    rcases hInv.entry_remote i sid r hEntry with
      ⟨j, s, hAdded, hSid, hNe⟩
    have hOwner :=
      (hInv.owner_remote i sid r hEntry).2 j s hAdded hSid
    exact hNe (hInv.ids (hOwner.symm.trans hOwn))
  case lookup => exact hInv.resolves

/- Serial runs keep the invariant. -/
theorem of_reach
    [DecidableEq ι]
    (hReach :
      Transition.Reach SerialStart SerialStep st) :
    SerialInv st :=
  hReach.invariant (fun _ hStart => SerialInv.start hStart)
    fun _ _ hInv hStep => hInv.step hStep

end SerialInv

/-
  In every state a serial run reaches, the handles, counters
  and records of the cluster agree.
-/
theorem serial_storesAgree
    [DecidableEq ι]
    (st : Serial ι)
    (hReach :
      Transition.Reach SerialStart SerialStep st) :
    StoresAgree st :=
  (SerialInv.of_reach hReach).storesAgree

/- Two nodes that have just registered. -/
theorem serialStart_two_nodes :
    SerialStart
      ⟨(⟨fun b => Node.new { id := if b then 1 else 2 },
          Redis.empty⟩ : Cluster Bool), [], []⟩ := by
  refine ⟨?_, fun _ => ⟨rfl, rfl⟩, rfl, rfl, rfl⟩
  intro a b hSame
  cases a <;> cases b <;>
    simp_all [Cluster.id, Node.new]

/- One session, looked up from the other of two nodes. -/
theorem storesAgree_two_nodes :
    StoresAgree
      ⟨((⟨fun b => Node.new { id := if b then 1 else 2 },
          Redis.empty⟩ : Cluster Bool).add true
            ⟨⟨1, true⟩, some "u", "a"⟩
            (fun _ => "0")).lookup false "u",
        [(true, ⟨⟨1, true⟩, some "u", "a"⟩)], []⟩ :=
  serial_storesAgree _
    (.step
      (.step (.init serialStart_two_nodes)
        (.add (fun _ => "0") (by simp) (by simp)))
      (.lookup false "u"))

/- Any number of sessions may be open on a node. -/
theorem exists_open_sessions (n : Nat) :
    ∃ st : Serial Bool,
      Transition.Reach SerialStart SerialStep st ∧
      SessionMap.localCount
        (st.cluster.nodes true).sessionMap = n ∧
      ∀ p ∈ st.added, p.2.sessionId.length < n := by
  induction n with
  | zero =>
      exact ⟨_, .init serialStart_two_nodes, rfl, by simp⟩
  | succ n ih =>
      rcases ih with ⟨st, hReach, hCount, hShort⟩
      have hInv := SerialInv.of_reach hReach
      -- the new session's id is longer than all before it
      let s : LocalSession :=
        ⟨⟨n, true⟩, some "u",
          String.ofList (List.replicate n 'a')⟩
      have hLength : s.sessionId.length = n := by
        simp [s]
      have hFresh :
          ∀ p ∈ st.added, p.2.sessionId ≠ s.sessionId := by
        intro p hMem hSame
        have hLt := hShort p hMem
        rw [hSame, hLength] at hLt
        exact lt_irrefl n hLt
      have hNew :
          (st.cluster.site true).node.sessionMap.lookup
            s.sessionId = none :=
        hInv.entry_fresh hFresh true
      refine ⟨_, hReach.step
        (.add (i := true) (s := s) (fun _ => "0") hFresh
          (by simp [s])), ?_, ?_⟩
      · rw [Cluster.setSite_nodes_self,
          SessionManager.add_sessionMap,
          SessionMap.localCount_insert _ _ _ hNew]
        exact congrArg (· + 1) hCount
      · intro p hMem
        rcases List.mem_cons.mp hMem with rfl | hOld
        · exact hLength.trans_lt (Nat.lt_succ_self n)
        · exact (hShort p hOld).trans (Nat.lt_succ_self n)

/- A counter of 32 bits does not count all sessions. -/
theorem counter_overflows :
    ¬ ∀ st : Serial Bool,
      Transition.Reach SerialStart SerialStep st →
      StoresAgree st ∧
        ∀ i, (st.cluster.nodes i).Balanced := by
  intro hAll
  rcases exists_open_sessions (2 ^ 31) with
    ⟨st, hReach, hCount, -⟩
  have hFits :=
    ((SerialInv.of_reach hReach).counted true).balanced_iff.mp
      ((hAll st hReach).2 true)
  rw [hCount] at hFits
  exact lt_irrefl _ hFits

end NettyCluster
