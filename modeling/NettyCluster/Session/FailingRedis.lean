import NettyCluster.Session.UserRecord

/-
  Changes of a user's record when commands of the store fail.

  A read that fails looks like a record that is not there,
  and a write that fails does nothing. A change that follows
  a failed read starts from a record without sessions.

  Main declarations:
    * `RedisHelper.get`, `RedisHelper.set`
    * `FailingRedis.change`
    * `FailingRedis.keeps_iff`
    * `FailingRedis.run_keeps`
-/

------------------------------------------------------------
-- Commands That Fail
------------------------------------------------------------

namespace NettyCluster

namespace RedisHelper

/- Read a value; null when the command fails. -/
def get
    {α : Type}
    (ok : Bool)
    (stored : Option α) : Option α :=
  if ok then stored else none

/- Write to the store; nothing when the command fails. -/
def set
    {α : Type}
    (ok : Bool)
    (stored written : α) : α :=
  if ok then written else stored

end RedisHelper

/- Which of the two commands of a change succeed. -/
structure Commands where
  get : Bool
  setex : Bool
deriving DecidableEq, Repr

namespace FailingRedis

/- Read a user's record. -/
def get
    (ok : Bool)
    (redis : Redis)
    (userId : Option String) : Option UserCache :=
  RedisHelper.get ok (UserCacheImpl.get redis userId)

/- Write a user's record. -/
def save
    (ok : Bool)
    (redis : Redis)
    (s : UserCache) : Redis :=
  RedisHelper.set ok redis (UserCacheImpl.save redis s)

/- The record a change starts from; a missing one is new. -/
def getOrNew
    (ok : Bool)
    (redis : Redis)
    (uid : Option String) : UserCache :=
  (get ok redis uid).getD (UserCache.new uid)

/- Read the record, add a session and write it back. -/
def addSession
    (commands : Commands)
    (redis : Redis)
    (uid : Option String)
    (session : SessionNodeCache) : Redis :=
  save commands.setex redis
    ((getOrNew commands.get redis uid).addSession session)

/- Read the record, remove a session and write it back. -/
def removeSession
    (commands : Commands)
    (redis : Redis)
    (uid : Option String)
    (sessionId : String) : Redis :=
  save commands.setex redis
    ((getOrNew commands.get redis uid).removeSession
      sessionId)

/- One change of a user's record. -/
def change
    (commands : Commands)
    (redis : Redis)
    (uid : Option String) : UserCall → Redis
| .addSession session =>
    addSession commands redis uid session
| .removeSession sessionId =>
    removeSession commands redis uid sessionId

/- The sessions recorded for a user. -/
def recorded
    (redis : Redis)
    (uid : Option String) : List String :=
  sids (UserCacheImpl.records redis uid)

/-
  A change keeps the recorded sessions, but for the one it
  is to remove.
-/
def Keeps
    (redis : Redis)
    (uid : Option String)
    (call : UserCall)
    (after : Redis) : Prop :=
  ∀ sid ∈ recorded redis uid,
    call ≠ .removeSession sid → sid ∈ recorded after uid

/-
  The change is not blind: it knows what is recorded, or
  does not write, or no other session is recorded.
-/
def Sighted
    (commands : Commands)
    (redis : Redis)
    (uid : Option String)
    (call : UserCall) : Prop :=
  commands.get = true ∨ commands.setex = false ∨
    ∀ sid ∈ recorded redis uid, sid = call.sid

------------------------------------------------------------
-- What Is Kept
------------------------------------------------------------

/- Without failures the changes are the ordinary ones. -/
theorem change_of_ok
    (redis : Redis)
    (uid : Option String)
    (call : UserCall) :
    change ⟨true, true⟩ redis uid call =
      match call with
      | .addSession s =>
          UserCacheImpl.addSession redis uid s
      | .removeSession sid =>
          UserCacheImpl.removeSession redis uid sid := by
  cases call <;> rfl

/- A change is a write of the changed record. -/
theorem change_eq
    (commands : Commands)
    (redis : Redis)
    (uid : Option String)
    (call : UserCall) :
    change commands redis uid call =
      save commands.setex redis
        (call.change (getOrNew commands.get redis uid)) := by
  cases call <;> rfl

/- A failed write leaves all records as they were. -/
theorem change_of_setex_fails
    {commands : Commands}
    (hSetex : commands.setex = false)
    (redis : Redis)
    (uid : Option String)
    (call : UserCall) :
    change commands redis uid call = redis := by
  rw [change_eq, hSetex]
  rfl

/- After a failed read the record is the call's alone. -/
theorem recorded_of_get_fails
    {commands : Commands}
    (hGet : commands.get = false)
    (hSetex : commands.setex = true)
    (redis : Redis)
    (uid : Option String)
    (call : UserCall) :
    recorded (change commands redis uid call) uid =
      sids (call.change (UserCache.new uid)).map := by
  rw [change_eq, hGet, hSetex]
  change sids (UserCacheImpl.records (UserCacheImpl.save
    redis (call.change (UserCache.new uid))) uid) = _
  have hKey :
      userKey uid = userKey (UserCache.new uid).userId := rfl
  rw [UserCacheImpl.records_save, UserCall.change_userId,
    if_pos hKey]

/- The sessions after a change that read the record. -/
theorem mem_recorded_of_get
    {commands : Commands}
    (hGet : commands.get = true)
    (hSetex : commands.setex = true)
    (redis : Redis)
    (uid : Option String)
    (call : UserCall)
    (sid : String) :
    sid ∈ recorded (change commands redis uid call) uid ↔
      match call with
      | .addSession s =>
          sid = s.sessionid ∨ sid ∈ recorded redis uid
      | .removeSession sid' =>
          sid ∈ recorded redis uid ∧ sid ≠ sid' := by
  rw [change_eq, hGet, hSetex]
  change sid ∈ sids (UserCacheImpl.records
    (UserCacheImpl.save redis (call.change
      (UserCacheImpl.getOrNew redis uid))) uid) ↔ _
  rw [UserCacheImpl.records_save, UserCall.change_userId,
    UserCacheImpl.userKey_getOrNew, if_pos rfl,
    UserCall.mem_sids_change, UserCacheImpl.getOrNew_map]
  rfl

/- A change that knows what is recorded keeps it. -/
theorem keeps_of_sighted
    {commands : Commands}
    {redis : Redis}
    {uid : Option String}
    {call : UserCall}
    (hSighted : Sighted commands redis uid call) :
    Keeps redis uid call
      (change commands redis uid call) := by
  intro sid hMem hOther
  by_cases hSetex : commands.setex = true
  · by_cases hGet : commands.get = true
    · rw [mem_recorded_of_get hGet hSetex]
      cases call with
      | addSession s => exact .inr hMem
      | removeSession sid' =>
          refine ⟨hMem, ?_⟩
          rintro rfl
          exact hOther rfl
    · rcases hSighted with hRead | hFails | hOnly
      · exact absurd hRead hGet
      · simp [hSetex] at hFails
      · have hSid := hOnly sid hMem
        subst hSid
        cases call with
        | addSession s =>
            rw [recorded_of_get_fails (by simpa using hGet)
              hSetex, UserCall.mem_sids_change]
            exact .inl rfl
        | removeSession sid' => exact absurd rfl hOther
  · rw [change_of_setex_fails (by simpa using hSetex)]
    exact hMem

/-
  A change keeps the recorded sessions unless its read fails,
  its write does not, and another session is recorded.
-/
theorem keeps_iff
    (commands : Commands)
    (redis : Redis)
    (uid : Option String)
    (call : UserCall) :
    Keeps redis uid call
        (change commands redis uid call) ↔
      Sighted commands redis uid call := by
  constructor
  · intro hKeeps
    by_cases hGet : commands.get = true
    · exact .inl hGet
    · by_cases hSetex : commands.setex = true
      · apply Or.inr
        apply Or.inr
        intro sid hMem
        by_contra hOther
        have hNotRemoved : call ≠ .removeSession sid := by
          rintro rfl
          exact hOther rfl
        have hKept := hKeeps sid hMem hNotRemoved
        rw [recorded_of_get_fails (by simpa using hGet)
          hSetex, UserCall.mem_sids_change] at hKept
        cases call with
        | addSession s =>
            rcases hKept with hSame | hNone
            · exact hOther hSame
            · simp [UserCache.new, sids] at hNone
        | removeSession sid' =>
            simp [UserCache.new, sids] at hKept
      · exact .inr (.inl (by simpa using hSetex))
  · exact keeps_of_sighted

/- The user has one session, and the read fails. -/
theorem failed_read_drops_session :
    ¬ Keeps
      (UserCacheImpl.addSession Redis.empty (some "u")
        ⟨some "u", "a", {}⟩)
      (some "u") (.addSession ⟨some "u", "b", {}⟩)
      (change ⟨false, true⟩
        (UserCacheImpl.addSession Redis.empty (some "u")
          ⟨some "u", "a", {}⟩)
        (some "u") (.addSession ⟨some "u", "b", {}⟩)) := by
  intro hKeeps
  have hLost := hKeeps "a" (by decide) (by decide)
  revert hLost
  decide

/- Several changes of a user's record. -/
def run
    (uid : Option String)
    (redis : Redis)
    (calls : List (Commands × UserCall)) : Redis :=
  calls.foldl (fun redis call =>
    change call.1 redis uid call.2) redis

/-
  When no change writes after a failed read, all sessions
  but those removed stay recorded.
-/
theorem run_keeps
    (uid : Option String)
    (redis : Redis)
    (calls : List (Commands × UserCall))
    (hSighted :
      ∀ call ∈ calls,
        call.1.get = true ∨ call.1.setex = false)
    {sid : String}
    (hMem : sid ∈ recorded redis uid)
    (hKept :
      ∀ call ∈ calls, call.2 ≠ .removeSession sid) :
    sid ∈ recorded (run uid redis calls) uid := by
  induction calls generalizing redis with
  | nil => exact hMem
  | cons call calls ih =>
      have hSees :
          Sighted call.1 redis uid call.2 := by
        rcases hSighted call List.mem_cons_self with
          hRead | hFails
        · exact .inl hRead
        · exact .inr (.inl hFails)
      have hNext := keeps_of_sighted hSees sid hMem
        (hKept call List.mem_cons_self)
      exact ih (change call.1 redis uid call.2)
        (fun call' hCall =>
          hSighted call' (List.mem_cons_of_mem call hCall))
        hNext
        (fun call' hCall =>
          hKept call' (List.mem_cons_of_mem call hCall))

end FailingRedis

end NettyCluster
