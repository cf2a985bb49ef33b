import Mathlib.Logic.Function.Basic
import NettyCluster.Session.SessionManager

/-
  Nodes that share one store of records.

  Main declarations:
    * `Cluster`
    * `Cluster.setSite`
    * `Cluster.Open`
    * `SessionMap.localCount`
    * `Node.Balanced`, `Node.Counted`
-/

------------------------------------------------------------
-- Clusters
------------------------------------------------------------

namespace NettyCluster

variable {ι : Type}

/- The nodes of a cluster and the records they share. -/
structure Cluster (ι : Type) where
  nodes : ι → Node ι
  redis : Redis

namespace Cluster

/- A node with the shared records. -/
def site
    (c : Cluster ι)
    (i : ι) : Site ι :=
  ⟨c.nodes i, c.redis⟩

/- The id a node registered with. -/
def id
    (c : Cluster ι)
    (i : ι) : Int :=
  (c.nodes i).wsNode.id

/- The handle a node has for a session id. -/
def entry
    (c : Cluster ι)
    (i : ι)
    (sid : String) : Option ServerSession :=
  (c.nodes i).sessionMap.lookup sid

/- A session is open on a node that has it as its own. -/
def Open
    (c : Cluster ι)
    (i : ι)
    (s : LocalSession) : Prop :=
  c.entry i s.sessionId = some (.localSession s)

/- The handle of an open session on its own site. -/
theorem Open.lookup
    {c : Cluster ι}
    {i : ι}
    {s : LocalSession}
    (hOpen : c.Open i s) :
    (c.site i).node.sessionMap.lookup s.sessionId =
      some (.localSession s) :=
  hOpen

variable [DecidableEq ι]

/- An operation of one node changes it and the records. -/
def setSite
    (c : Cluster ι)
    (i : ι)
    (site : Site ι) : Cluster ι :=
  ⟨Function.update c.nodes i site.node, site.redis⟩

section SetSite

variable (c : Cluster ι)
variable (i : ι)
variable (site : Site ι)

@[simp] theorem setSite_nodes_self :
    (c.setSite i site).nodes i = site.node := by
  simp [setSite]

@[simp] theorem setSite_nodes_ne
    {j : ι}
    (hNe : j ≠ i) :
    (c.setSite i site).nodes j = c.nodes j := by
  simp [setSite, hNe]

@[simp] theorem setSite_redis :
    (c.setSite i site).redis = site.redis :=
  rfl

/- Nothing happened at a node that is as it was. -/
@[simp] theorem setSite_site :
    c.setSite i (c.site i) = c := by
  simp [setSite, site]

@[simp] theorem setSite_entry_self
    (sid : String) :
    (c.setSite i site).entry i sid =
      site.node.sessionMap.lookup sid := by
  simp [entry]

@[simp] theorem setSite_entry_ne
    {j : ι}
    (hNe : j ≠ i)
    (sid : String) :
    (c.setSite i site).entry j sid = c.entry j sid := by
  simp [entry, hNe]

/- Operations do not change the ids. -/
theorem setSite_id
    (hId : site.node.wsNode.id = c.id i) :
    (c.setSite i site).id = c.id := by
  funext j
  by_cases hNode : j = i
  · subst hNode
    simpa [id] using hId
  · simp [id, hNode]

end SetSite

end Cluster

end NettyCluster

------------------------------------------------------------
-- Counting Local Sessions
------------------------------------------------------------

namespace NettyCluster

namespace SessionMap

/- The number of a node's own sessions. -/
def localCount (m : SessionMap) : Nat :=
  m.entries.countP fun e => e.2.isLocal

@[simp] theorem localCount_empty :
    localCount ∅ = 0 :=
  rfl

/- A new handle counts when it is a session of the node. -/
theorem localCount_insert
    (m : SessionMap)
    (sid : String)
    (session : ServerSession)
    (hNew : m.lookup sid = none) :
    localCount (m.insert sid session) =
      localCount m + if session.isLocal then 1 else 0 := by
  have hNotMem : sid ∉ m := AList.lookup_eq_none.mp hNew
  rw [localCount, AList.entries_insert_of_notMem hNotMem,
    List.countP_cons, localCount]

/- Any handle that is put counts for one at most. -/
theorem localCount_insert_le
    (m : SessionMap)
    (sid : String)
    (session : ServerSession) :
    localCount (m.insert sid session) ≤ localCount m + 1 := by
  have hRest :
      (m.entries.kerase sid).countP (fun e => e.2.isLocal) ≤
        localCount m :=
    (List.kerase_sublist sid m.entries).countP_le
  rw [localCount, AList.entries_insert, List.countP_cons]
  split_ifs <;> omega

/- A session of the node that is dropped counts no more. -/
theorem localCount_erase
    (m : SessionMap)
    (sid : String)
    (session : ServerSession)
    (hSome : m.lookup sid = some session) :
    localCount m =
      localCount (m.erase sid) +
        if session.isLocal then 1 else 0 := by
  have hSplit :
      m.entries.Perm
        (⟨sid, session⟩ :: (m.erase sid).entries) := by
    have hGone : sid ∉ m.erase sid := by
      simp [AList.mem_erase]
    rw [← AList.entries_insert_of_notMem hGone]
    refine List.lookup_ext m.nodupKeys
      (AList.insert sid session (m.erase sid)).nodupKeys ?_
    intro sid' session'
    change session' ∈ m.lookup sid' ↔
      session' ∈
        (AList.insert sid session (m.erase sid)).lookup sid'
    by_cases hSame : sid' = sid
    · subst hSame
      rw [hSome, AList.lookup_insert]
    · rw [AList.lookup_insert_ne hSame,
        AList.lookup_erase_ne hSame]
  rw [localCount, hSplit.countP_eq, List.countP_cons,
    localCount]

end SessionMap

/- The counter of a node is the number of its sessions. -/
def Node.Balanced (node : Node ι) : Prop :=
  node.wsNode.balance.toInt =
    SessionMap.localCount node.sessionMap

/- The counter counts the node's sessions in 32 bits. -/
def Node.Counted (node : Node ι) : Prop :=
  node.wsNode.balance =
    Int32.ofNat (SessionMap.localCount node.sessionMap)

theorem Node.Balanced.counted
    {node : Node ι}
    (hBalanced : node.Balanced) :
    node.Counted := by
  rw [Counted, ← Int32.ofInt_eq_ofNat, ← hBalanced,
    Int32.ofInt_toInt]

/- What 32 bits hold is the number itself. -/
theorem Node.Counted.balanced_iff
    {node : Node ι}
    (hCounted : node.Counted) :
    node.Balanced ↔
      SessionMap.localCount node.sessionMap < 2 ^ 31 := by
  constructor
  · intro hBalanced
    have hBound := Int32.toInt_lt node.wsNode.balance
    rw [hBalanced] at hBound
    omega
  · intro hFits
    rw [Balanced, hCounted, Int32.toInt_ofNat_of_lt hFits]

namespace SessionManager

/- Handles made by a lookup are not the node's sessions. -/
theorem localCount_resolve
    (m : SessionMap)
    (records : List SessionNodeCache) :
    SessionMap.localCount (resolve m records).2 =
      SessionMap.localCount m := by
  induction records generalizing m with
  | nil => rfl
  | cons r records ih =>
      cases hLookup : m.lookup r.sessionid with
      | some session => simp only [resolve, hLookup, ih]
      | none =>
          simp only [resolve, hLookup, ih]
          rw [SessionMap.localCount_insert m _ _ hLookup]
          rfl

theorem add_counted
    {site : Site ι}
    {s : LocalSession}
    (clock : Int → String)
    (hCounted : site.node.Counted)
    (hNew :
      site.node.sessionMap.lookup s.sessionId = none) :
    (add site s clock).site.node.Counted := by
  unfold Node.Counted at hCounted ⊢
  rw [add_balance, add_sessionMap,
    SessionMap.localCount_insert _ _ _ hNew, hCounted]
  exact (Int32.ofNat_add _ 1).symm

theorem remove_counted
    {site : Site ι}
    {sid : String}
    {s : LocalSession}
    (hCounted : site.node.Counted)
    (hLocal :
      site.node.sessionMap.lookup sid =
        some (.localSession s)) :
    (remove site sid).node.Counted := by
  unfold Node.Counted at hCounted ⊢
  have hCount := SessionMap.localCount_erase _ _ _ hLocal
  rw [remove_balance hLocal, remove_sessionMap hLocal,
    hCounted, hCount]
  simp [ServerSession.isLocal]

theorem getSessionByUserId_counted
    {site : Site ι}
    (userid : Option String)
    (hCounted : site.node.Counted) :
    (getSessionByUserId site userid).2.Counted := by
  unfold Node.Counted at hCounted ⊢
  rw [getSessionByUserId_eq]
  by_cases hEmpty :
      UserCacheImpl.records site.redis userid = []
  · simpa [hEmpty] using hCounted
  · simpa [hEmpty, localCount_resolve] using hCounted

end SessionManager

end NettyCluster
