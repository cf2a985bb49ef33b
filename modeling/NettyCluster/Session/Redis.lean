import Mathlib.Logic.Function.Basic
import NettyCluster.Entity.UserCache

/-
  The records of users and sessions that all nodes share.

  Values are kept as the records they are the JSON of, and
  under the part of the key that follows the prefix of the
  two caches. A record is only ever stored under its own
  user or session id. Expiry is left out.

  Main declarations:
    * `Redis`
    * `UserCacheImpl.addSession`
    * `UserCacheImpl.removeSession`
    * `SessionCacheImpl.save`, `SessionCacheImpl.remove`
-/

------------------------------------------------------------
-- The Store
------------------------------------------------------------

namespace NettyCluster

/- The key of a user id; null is written as a word. -/
def userKey (userId : Option String) : String :=
  userId.getD "null"

/- The stored records, each under its own id. -/
structure Redis where
  users : String → Option UserCache
  sessions : String → Option SessionNodeCache
  users_key :
    ∀ k u, users k = some u → userKey u.userId = k
  sessions_key :
    ∀ k s, sessions k = some s → s.sessionid = k

namespace Redis

/- A store without records. -/
def empty : Redis where
  users _ := none
  sessions _ := none
  users_key _ _ h := by simp at h
  sessions_key _ _ h := by simp at h

end Redis

------------------------------------------------------------
-- User Records
------------------------------------------------------------

namespace UserCacheImpl

/- Write a user's record. -/
def save
    (redis : Redis)
    (s : UserCache) : Redis where
  users :=
    Function.update redis.users (userKey s.userId) (some s)
  sessions := redis.sessions
  users_key k u hUser := by
    by_cases hKey : k = userKey s.userId
    · subst hKey
      rw [Function.update_self] at hUser
      rw [Option.some.inj hUser]
    · rw [Function.update_of_ne hKey] at hUser
      exact redis.users_key k u hUser
  sessions_key := redis.sessions_key

/- Read a user's record. -/
def get
    (redis : Redis)
    (userId : Option String) : Option UserCache :=
  redis.users (userKey userId)

/- The sessions recorded for a user. -/
def records
    (redis : Redis)
    (userId : Option String) : List SessionNodeCache :=
  match get redis userId with
  | none => []
  | some u => u.map

/- The record a change starts from; a missing one is new. -/
def getOrNew
    (redis : Redis)
    (uid : Option String) : UserCache :=
  (get redis uid).getD (UserCache.new uid)

/- Read the record, add a session and write it back. -/
def addSession
    (redis : Redis)
    (uid : Option String)
    (session : SessionNodeCache) : Redis :=
  save redis ((getOrNew redis uid).addSession session)

/- Read the record, remove a session and write it back. -/
def removeSession
    (redis : Redis)
    (uid : Option String)
    (sessionId : String) : Redis :=
  save redis ((getOrNew redis uid).removeSession sessionId)

@[simp] theorem save_sessions
    (redis : Redis)
    (s : UserCache) :
    (save redis s).sessions = redis.sessions :=
  rfl

theorem get_save
    (redis : Redis)
    (s : UserCache)
    (uid : Option String) :
    get (save redis s) uid =
      if userKey uid = userKey s.userId then some s
      else get redis uid :=
  Function.update_apply _ _ _ _

/- The record a change starts from belongs to the user. -/
@[simp] theorem userKey_getOrNew
    (redis : Redis)
    (uid : Option String) :
    userKey (getOrNew redis uid).userId = userKey uid := by
  unfold getOrNew
  cases hGet : get redis uid with
  | none => rfl
  | some u => exact redis.users_key _ u hGet

/- A change starts from the recorded sessions. -/
@[simp] theorem getOrNew_map
    (redis : Redis)
    (uid : Option String) :
    (getOrNew redis uid).map = records redis uid := by
  unfold getOrNew records
  cases get redis uid <;> rfl

theorem nodup_records
    (redis : Redis)
    (uid : Option String) :
    (sids (records redis uid)).Nodup := by
  rw [← getOrNew_map]
  exact (getOrNew redis uid).nodup

/- The sessions of a record that was written. -/
theorem records_save
    (redis : Redis)
    (s : UserCache)
    (uid : Option String) :
    records (save redis s) uid =
      if userKey uid = userKey s.userId then s.map
      else records redis uid := by
  unfold records
  rw [get_save]
  by_cases hKey : userKey uid = userKey s.userId
  · rw [if_pos hKey, if_pos hKey]
  · rw [if_neg hKey, if_neg hKey]

/- Users stored under one key have one record. -/
theorem records_congr
    (redis : Redis)
    {uid uid' : Option String}
    (hKey : userKey uid = userKey uid') :
    records redis uid = records redis uid' := by
  rw [records, records, get, get, hKey]

/- Adding a session replaces the one of its id. -/
theorem mem_records_addSession
    (redis : Redis)
    (uid uid' : Option String)
    (s r : SessionNodeCache) :
    r ∈ records (addSession redis uid s) uid' ↔
      (userKey uid' = userKey uid ∧ r = s) ∨
        (r ∈ records redis uid' ∧
          (userKey uid' = userKey uid →
            r.sessionid ≠ s.sessionid)) := by
  rw [addSession, records_save]
  change r ∈ (if _ = userKey (getOrNew redis uid).userId
    then _ else _) ↔ _
  rw [userKey_getOrNew]
  by_cases hKey : userKey uid' = userKey uid
  · rw [if_pos hKey, UserCache.mem_addSession, getOrNew_map,
      records_congr redis hKey]
    simp [hKey]
  · rw [if_neg hKey]
    simp [hKey]

/- Removing a session leaves those of other ids. -/
theorem mem_records_removeSession
    (redis : Redis)
    (uid uid' : Option String)
    (sid : String)
    (r : SessionNodeCache) :
    r ∈ records (removeSession redis uid sid) uid' ↔
      r ∈ records redis uid' ∧
        (userKey uid' = userKey uid →
          r.sessionid ≠ sid) := by
  rw [removeSession, records_save]
  change r ∈ (if _ = userKey (getOrNew redis uid).userId
    then _ else _) ↔ _
  rw [userKey_getOrNew]
  by_cases hKey : userKey uid' = userKey uid
  · rw [if_pos hKey, UserCache.mem_removeSession,
      getOrNew_map, records_congr redis hKey]
    simp [hKey]
  · rw [if_neg hKey]
    simp [hKey]

end UserCacheImpl

------------------------------------------------------------
-- Session Records
------------------------------------------------------------

namespace SessionCacheImpl

/- Write a session's record. -/
def save
    (redis : Redis)
    (s : SessionNodeCache) : Redis where
  users := redis.users
  sessions :=
    Function.update redis.sessions s.sessionid (some s)
  users_key := redis.users_key
  sessions_key k r hSession := by
    by_cases hKey : k = s.sessionid
    · subst hKey
      rw [Function.update_self] at hSession
      rw [Option.some.inj hSession]
    · rw [Function.update_of_ne hKey] at hSession
      exact redis.sessions_key k r hSession

/- Read a session's record. -/
def get
    (redis : Redis)
    (sessionId : String) : Option SessionNodeCache :=
  redis.sessions sessionId

/- Delete a session's record. -/
def remove
    (redis : Redis)
    (sessionId : String) : Redis where
  users := redis.users
  sessions := Function.update redis.sessions sessionId none
  users_key := redis.users_key
  sessions_key k r hSession := by
    by_cases hKey : k = sessionId
    · subst hKey
      simp at hSession
    · rw [Function.update_of_ne hKey] at hSession
      exact redis.sessions_key k r hSession

@[simp] theorem get_userSave
    (redis : Redis)
    (u : UserCache)
    (sessionId : String) :
    get (UserCacheImpl.save redis u) sessionId =
      get redis sessionId :=
  rfl

@[simp] theorem get_addSession
    (redis : Redis)
    (uid : Option String)
    (s : SessionNodeCache)
    (sessionId : String) :
    get (UserCacheImpl.addSession redis uid s) sessionId =
      get redis sessionId :=
  rfl

@[simp] theorem get_removeSession
    (redis : Redis)
    (uid : Option String)
    (sid sessionId : String) :
    get (UserCacheImpl.removeSession redis uid sid)
        sessionId =
      get redis sessionId :=
  rfl

theorem get_save
    (redis : Redis)
    (s : SessionNodeCache)
    (sessionId : String) :
    get (save redis s) sessionId =
      if sessionId = s.sessionid then some s
      else get redis sessionId :=
  Function.update_apply _ _ _ _

theorem get_remove
    (redis : Redis)
    (sid sessionId : String) :
    get (remove redis sid) sessionId =
      if sessionId = sid then none
      else get redis sessionId :=
  Function.update_apply _ _ _ _

@[simp] theorem records_save
    (redis : Redis)
    (s : SessionNodeCache)
    (uid : Option String) :
    UserCacheImpl.records (save redis s) uid =
      UserCacheImpl.records redis uid :=
  rfl

@[simp] theorem records_remove
    (redis : Redis)
    (sid : String)
    (uid : Option String) :
    UserCacheImpl.records (remove redis sid) uid =
      UserCacheImpl.records redis uid :=
  rfl

end SessionCacheImpl

end NettyCluster
