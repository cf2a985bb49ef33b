import NettyCluster.Session.Node

/-
  The session manager of a node: logging a session in and
  out, and resolving the sessions of a user.

  Every operation takes the node and the shared records and
  gives back both, with what the node wrote. The single
  steps of logging in and out are definitions of their own.

  Main declarations:
    * `Site`
    * `SessionManager.add`
    * `SessionManager.getSessionByUserId`
    * `SessionManager.closeSession`, `SessionManager.remove`
    * `SessionManager.addRemoteSession`
    * `SessionManager.removeRemoteSession`
-/

------------------------------------------------------------
-- Sites
------------------------------------------------------------

namespace NettyCluster

variable {ι : Type}

/- A node and the records it shares with the others. -/
structure Site (ι : Type) where
  node : Node ι
  redis : Redis

/- The state after an operation, and what it wrote. -/
structure Done (ι : Type) where
  site : Site ι
  written : Written ι

namespace SessionManager

/- The record of a session of the node, as it is now. -/
def nodeCache
    (site : Site ι)
    (s : LocalSession) : SessionNodeCache :=
  ⟨s.userid, s.sessionId, site.node.wsNode⟩

------------------------------------------------------------
-- Logging In
------------------------------------------------------------

/- Keep the session on its node. -/
def putLocal
    (site : Site ι)
    (s : LocalSession) : Site ι :=
  { site with
    node := site.node.setSessionMap
      (site.node.sessionMap.insert s.sessionId
        (.localSession s)) }

/- Write the session's record. -/
def saveSession
    (site : Site ι)
    (s : LocalSession) : Site ι :=
  { site with
    redis :=
      SessionCacheImpl.save site.redis (nodeCache site s) }

/- Add the session to its user's record. -/
def addUserSession
    (site : Site ι)
    (s : LocalSession) : Site ι :=
  { site with
    redis :=
      UserCacheImpl.addSession site.redis s.userid
        (nodeCache site s) }

/- Count the session. -/
def incBalance (site : Site ι) : Site ι :=
  { site with node := site.node.incBalance }

/- Tell the other nodes that a session went online. -/
def notifyOtherWsNodeOnLine
    (site : Site ι)
    (sessionNodeCache : SessionNodeCache)
    (clock : Int → String) : Written ι :=
  NodeRouter.sendNotification site.node
    ((Notification.wrapNode sessionNodeCache).setType
      Notification.SESSION_ON).text
    clock

/-
  Log a session in. The record that is sent to the others is
  written after the node has counted the session.
-/
def add
    (site : Site ι)
    (s : LocalSession)
    (clock : Int → String) : Done ι :=
  let site := putLocal site s
  let site := saveSession site s
  let site := addUserSession site s
  let site := incBalance site
  ⟨site,
    notifyOtherWsNodeOnLine site (nodeCache site s) clock⟩

------------------------------------------------------------
-- Resolving Users
------------------------------------------------------------

/-
  The handles of some records. A session the node does not
  know gets a handle as a session of another node.
-/
def resolve
    (sessionMap : SessionMap) :
    List SessionNodeCache → List ServerSession × SessionMap
| [] => ([], sessionMap)
| r :: records =>
    match sessionMap.lookup r.sessionid with
    | some session =>
        let (sessions, after) := resolve sessionMap records
        (session :: sessions, after)
    | none =>
        let session := .remoteSession ⟨r⟩
        let (sessions, after) :=
          resolve (sessionMap.insert r.sessionid session)
            records
        (session :: sessions, after)

/- The handles of a user; null when there are none. -/
def getSessionByUserId
    (site : Site ι)
    (userid : Option String) :
    Option (List ServerSession) × Node ι :=
  match UserCacheImpl.get site.redis userid with
  | none => (none, site.node)
  | some userCache =>
      if userCache.map.isEmpty then
        (none, site.node)
      else
        let (sessions, sessionMap) :=
          resolve site.node.sessionMap userCache.map
        (some sessions, site.node.setSessionMap sessionMap)

------------------------------------------------------------
-- Logging Out
------------------------------------------------------------

/- Remove the session from its user's record. -/
def removeUserSession
    (site : Site ι)
    (uid : Option String)
    (sessionId : String) : Site ι :=
  { site with
    redis :=
      UserCacheImpl.removeSession site.redis uid sessionId }

/- Delete the session's record. -/
def removeSession
    (site : Site ι)
    (sessionId : String) : Site ι :=
  { site with
    redis := SessionCacheImpl.remove site.redis sessionId }

/- Drop the session's handle. -/
def eraseLocal
    (site : Site ι)
    (sessionId : String) : Site ι :=
  { site with
    node := site.node.setSessionMap
      (site.node.sessionMap.erase sessionId) }

/- Count the session no more. -/
def decrBalance (site : Site ι) : Site ι :=
  { site with node := site.node.decrBalance }

/- Forget a session the node has a handle of. -/
def remove
    (site : Site ι)
    (sessionId : String) : Site ι :=
  match site.node.sessionMap.lookup sessionId with
  | none => site
  | some session =>
      let uid := session.getUserIdValue
      let site := removeUserSession site uid sessionId
      let site := removeSession site sessionId
      let site := eraseLocal site sessionId
      decrBalance site

/- Tell the other nodes that a session went offline. -/
def notifyOtherWsNodeOffLine
    (site : Site ι)
    (localSession : LocalSession)
    (clock : Int → String) : Written ι :=
  NodeRouter.sendNotification site.node
    ((Notification.wrapContent
      (some localSession.sessionId)).setType
        Notification.SESSION_OFF).text
    clock

/-
  Close the session bound to a channel. The check for a
  channel without a session asks the missing session whether
  it is valid.
-/
def closeSession
    (site : Site ι)
    (bound : Option LocalSession)
    (clock : Int → String) : Done ι :=
  match bound with
  | none => ⟨site, ⟨[], some .nullPointer⟩⟩
  | some localSession =>
      let site := remove site localSession.sessionId
      let closed : Written ι :=
        ⟨[.close localSession.channel], none⟩
      ⟨site,
        closed.andThen
          (notifyOtherWsNodeOffLine site localSession
            clock)⟩

------------------------------------------------------------
-- Notices of Other Nodes
------------------------------------------------------------

/- A string is equal to no session. -/
def equalsString
    (_ : String)
    (_ : ServerSession) : Bool :=
  false

/- Whether some value of the map equals the argument. -/
def contains
    (sessionMap : SessionMap)
    (value : String) : Bool :=
  sessionMap.entries.any fun e => equalsString value e.2

/- A session of another node went offline. -/
def removeRemoteSession
    (node : Node ι)
    (sessionId : String) : Node ι :=
  if contains node.sessionMap sessionId = false then
    node
  else
    node.setSessionMap (node.sessionMap.erase sessionId)

/- A session of another node went online. -/
def addRemoteSession
    (node : Node ι)
    (sessionNodeCache : SessionNodeCache) : Node ι :=
  if contains node.sessionMap
      sessionNodeCache.sessionid then
    node
  else
    node.setSessionMap
      (node.sessionMap.insert sessionNodeCache.sessionid
        (.remoteSession ⟨sessionNodeCache⟩))

end SessionManager

end NettyCluster

------------------------------------------------------------
-- What the Operations Do
------------------------------------------------------------

namespace NettyCluster

variable {ι : Type}

namespace SessionManager

section Add

variable (site : Site ι)
variable (s : LocalSession)
variable (clock : Int → String)

/- The handle of a session that logged in is itself. -/
theorem add_sessionMap :
    (add site s clock).site.node.sessionMap =
      site.node.sessionMap.insert s.sessionId
        (.localSession s) :=
  rfl

theorem add_id :
    (add site s clock).site.node.wsNode.id =
      site.node.wsNode.id :=
  rfl

theorem add_balance :
    (add site s clock).site.node.wsNode.balance =
      site.node.wsNode.balance + 1 :=
  rfl

/- Logging in writes the record of the session. -/
theorem add_getSession (sid : String) :
    SessionCacheImpl.get (add site s clock).site.redis sid =
      if sid = s.sessionId then some (nodeCache site s)
      else SessionCacheImpl.get site.redis sid :=
  SessionCacheImpl.get_save site.redis (nodeCache site s) sid

/- Logging in adds the session to its user's record. -/
theorem mem_records_add
    (uid : Option String)
    (r : SessionNodeCache) :
    r ∈ UserCacheImpl.records (add site s clock).site.redis
        uid ↔
      (userKey uid = userKey s.userid ∧
          r = nodeCache site s) ∨
        (r ∈ UserCacheImpl.records site.redis uid ∧
          (userKey uid = userKey s.userid →
            r.sessionid ≠ s.sessionId)) :=
  UserCacheImpl.mem_records_addSession _ s.userid uid
    (nodeCache site s) r

end Add

section Remove

variable {site : Site ι}
variable {sid : String}

/- A session without a handle is not removed. -/
theorem remove_none
    (hNone : site.node.sessionMap.lookup sid = none) :
    remove site sid = site := by
  simp only [remove, hNone]

variable {session : ServerSession}

theorem remove_sessionMap
    (hSome :
      site.node.sessionMap.lookup sid = some session) :
    (remove site sid).node.sessionMap =
      site.node.sessionMap.erase sid := by
  simp only [remove, hSome]
  rfl

theorem remove_balance
    (hSome :
      site.node.sessionMap.lookup sid = some session) :
    (remove site sid).node.wsNode.balance =
      site.node.wsNode.balance - 1 := by
  simp only [remove, hSome]
  rfl

theorem remove_getSession
    (hSome :
      site.node.sessionMap.lookup sid = some session)
    (sid' : String) :
    SessionCacheImpl.get (remove site sid).redis sid' =
      if sid' = sid then none
      else SessionCacheImpl.get site.redis sid' := by
  simp only [remove, hSome]
  exact SessionCacheImpl.get_remove _ sid sid'

theorem mem_records_remove
    (hSome :
      site.node.sessionMap.lookup sid = some session)
    (uid : Option String)
    (r : SessionNodeCache) :
    r ∈ UserCacheImpl.records (remove site sid).redis uid ↔
      r ∈ UserCacheImpl.records site.redis uid ∧
        (userKey uid = userKey session.getUserIdValue →
          r.sessionid ≠ sid) := by
  simp only [remove, hSome]
  exact UserCacheImpl.mem_records_removeSession site.redis
    session.getUserIdValue uid sid r

end Remove

/- The node keeps its id. -/
theorem remove_id
    (site : Site ι)
    (sid : String) :
    (remove site sid).node.wsNode.id =
      site.node.wsNode.id := by
  unfold remove
  cases site.node.sessionMap.lookup sid <;> rfl

/- No value of the map is a string. -/
@[simp] theorem contains_eq_false
    (sessionMap : SessionMap)
    (value : String) :
    contains sessionMap value = false := by
  simp [contains, equalsString]

/- An offline notice is always ignored. -/
theorem removeRemoteSession_eq
    (node : Node ι)
    (sid : String) :
    removeRemoteSession node sid = node := by
  simp [removeRemoteSession]

/- An online notice always sets the handle. -/
theorem addRemoteSession_sessionMap
    (node : Node ι)
    (r : SessionNodeCache) :
    (addRemoteSession node r).sessionMap =
      node.sessionMap.insert r.sessionid
        (.remoteSession ⟨r⟩) := by
  simp [addRemoteSession]

------------------------------------------------------------
-- Handles of a User
------------------------------------------------------------

/- The handle a node has, or would make, for a record. -/
def handle
    (sessionMap : SessionMap)
    (r : SessionNodeCache) : ServerSession :=
  (sessionMap.lookup r.sessionid).getD (.remoteSession ⟨r⟩)

/- A handle made for one record is not another's. -/
theorem handle_insert_ne
    (sessionMap : SessionMap)
    (session : ServerSession)
    {sid : String}
    {r : SessionNodeCache}
    (hNe : r.sessionid ≠ sid) :
    handle (sessionMap.insert sid session) r =
      handle sessionMap r := by
  simp [handle, AList.lookup_insert_ne hNe]

/- Resolving gives the handle of each record. -/
theorem resolve_fst
    (sessionMap : SessionMap)
    (records : List SessionNodeCache)
    (hNodup : (sids records).Nodup) :
    (resolve sessionMap records).1 =
      records.map (handle sessionMap) := by
  induction records generalizing sessionMap with
  | nil => rfl
  | cons r records ih =>
      rw [sids, List.map_cons, List.nodup_cons] at hNodup
      cases hLookup : sessionMap.lookup r.sessionid with
      | some session =>
          simp [resolve, hLookup, ih sessionMap hNodup.2,
            handle]
      | none =>
          have hOthers :
              ∀ r' ∈ records,
                handle (sessionMap.insert r.sessionid
                  (.remoteSession ⟨r⟩)) r' =
                  handle sessionMap r' := by
            intro r' hMem
            apply handle_insert_ne
            intro hEq
            exact hNodup.1
              (hEq ▸ List.mem_map_of_mem hMem)
          simp only [resolve, hLookup, ih _ hNodup.2,
            List.map_cons, List.map_congr_left hOthers]
          simp [handle, hLookup]

/- Resolving makes handles where there were none. -/
theorem resolve_lookup
    (sessionMap : SessionMap)
    (records : List SessionNodeCache)
    (sid : String) :
    (resolve sessionMap records).2.lookup sid =
      match sessionMap.lookup sid with
      | some session => some session
      | none =>
          (records.find? fun r => r.sessionid = sid).map
            fun r => .remoteSession ⟨r⟩ := by
  induction records generalizing sessionMap with
  | nil =>
      cases hLookup : sessionMap.lookup sid <;>
        simp [resolve, hLookup]
  | cons r records ih =>
      cases hRecord : sessionMap.lookup r.sessionid with
      | some session =>
          simp only [resolve, hRecord, ih sessionMap]
          by_cases hSame : r.sessionid = sid
          · subst hSame
            simp [hRecord]
          · simp [hSame]
      | none =>
          simp only [resolve, hRecord, ih]
          by_cases hSame : r.sessionid = sid
          · subst hSame
            simp [hRecord]
          · rw [AList.lookup_insert_ne (Ne.symm hSame)]
            simp [hSame]

/- A lookup resolves the recorded sessions, if any. -/
theorem getSessionByUserId_eq
    (site : Site ι)
    (userid : Option String) :
    getSessionByUserId site userid =
      let records := UserCacheImpl.records site.redis userid
      if records = [] then
        (none, site.node)
      else
        (some (records.map (handle site.node.sessionMap)),
          site.node.setSessionMap
            (resolve site.node.sessionMap records).2) := by
  unfold getSessionByUserId UserCacheImpl.records
  cases UserCacheImpl.get site.redis userid with
  | none => simp
  | some u =>
      by_cases hEmpty : u.map = []
      · simp [hEmpty]
      · simp [hEmpty, resolve_fst _ _ u.nodup]

/- A lookup makes handles where there were none. -/
theorem getSessionByUserId_lookup
    (site : Site ι)
    (userid : Option String)
    (sid : String) :
    (getSessionByUserId site userid).2.sessionMap.lookup
        sid =
      match site.node.sessionMap.lookup sid with
      | some session => some session
      | none =>
          ((UserCacheImpl.records site.redis userid).find?
            fun r => r.sessionid = sid).map
              fun r => .remoteSession ⟨r⟩ := by
  rw [getSessionByUserId_eq]
  by_cases hEmpty :
      UserCacheImpl.records site.redis userid = []
  · cases hLookup : site.node.sessionMap.lookup sid <;>
      simp [hEmpty, hLookup]
  · simp [hEmpty, resolve_lookup]

theorem getSessionByUserId_wsNode
    (site : Site ι)
    (userid : Option String) :
    (getSessionByUserId site userid).2.wsNode =
      site.node.wsNode := by
  rw [getSessionByUserId_eq]
  by_cases hEmpty :
      UserCacheImpl.records site.redis userid = [] <;>
    simp [hEmpty]

theorem getSessionByUserId_workerMap
    (site : Site ι)
    (userid : Option String) :
    (getSessionByUserId site userid).2.workerMap =
      site.node.workerMap := by
  rw [getSessionByUserId_eq]
  by_cases hEmpty :
      UserCacheImpl.records site.redis userid = [] <;>
    simp [hEmpty]

end SessionManager

end NettyCluster
