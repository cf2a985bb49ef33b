import NettyCluster.Lib.KeySpace
import NettyCluster.Session.Expiry
import NettyCluster.Session.FailingRedis

/-
  The store as it is: texts under keys that expire.

  The two caches write their records as JSON, each under a
  prefix of its own, and set each key for four hours. Any
  number of calls may interleave, and commands may fail. The
  calls get from the texts what they would get from records
  of users and sessions.

  Main declarations:
    * `RedisServer`, `RedisServer.caches`
    * `Records`, `Records.caches`
    * `StoreRun.next`
    * `StoreRun.refines_run`
-/

------------------------------------------------------------
-- Texts under Keys
------------------------------------------------------------

namespace NettyCluster

/- What is stored, and the time in seconds. -/
structure RedisServer where
  now : Nat := 0
  entries : KeySpace.Store String String := fun _ => none

namespace RedisServer

/- Read a key; null when the command fails. -/
def get
    (ok : Bool)
    (server : RedisServer)
    (key : String) : Option String :=
  RedisHelper.get ok
    (KeySpace.get server.now server.entries key)

/- Write a key for a time; nothing when it fails. -/
def set
    (ok : Bool)
    (server : RedisServer)
    (key value : String)
    (timeout : Nat) : RedisServer :=
  RedisHelper.set ok server
    { server with
      entries :=
        KeySpace.setex server.now timeout key value
          server.entries }

/- Delete a key; nothing when it fails. -/
def remove
    (ok : Bool)
    (server : RedisServer)
    (key : String) : RedisServer :=
  RedisHelper.set ok server
    { server with entries := KeySpace.del key server.entries }

/- A second passes. -/
def tick (server : RedisServer) : RedisServer :=
  { server with now := server.now + 1 }

end RedisServer

/- Read an object; the text of null is read as null. -/
def JsonUtil.jsonToPojo
    {α : Type}
    (fromJson : Json → Option α)
    (json : String) : Except Thrown (Option α) :=
  match Json.read json with
  | none => .error .jsonSyntax
  | some .null => .ok none
  | some j =>
      match fromJson j with
      | none => .error .jsonSyntax
      | some t => .ok (some t)

/- What a cache makes of what is stored under a key. -/
def RedisServer.getPojo
    {α : Type}
    (fromJson : Json → Option α)
    (value : Option String) : Except Thrown (Option α) :=
  match value with
  | none => .ok none
  | some value =>
      if value.isEmpty then .ok none
      else JsonUtil.jsonToPojo fromJson value

namespace UserCacheImpl

def REDIS_PREFIX : String :=
  "UserCache:uid:"

/- Write a user's record. -/
def saveText
    (ok : Bool)
    (server : RedisServer)
    (s : UserCache) : RedisServer :=
  server.set ok (REDIS_PREFIX ++ userKey s.userId)
    s.toJson.text CASHE_LONG

/- Read a user's record. -/
def getText
    (ok : Bool)
    (server : RedisServer)
    (userId : Option String) :
    Except Thrown (Option UserCache) :=
  RedisServer.getPojo UserCache.fromJson
    (server.get ok (REDIS_PREFIX ++ userKey userId))

end UserCacheImpl

namespace SessionCacheImpl

def REDIS_PREFIX : String :=
  "SessionCache:id:"

/- Write a session's record. -/
def saveText
    (ok : Bool)
    (server : RedisServer)
    (sessionNodeCache : SessionNodeCache) : RedisServer :=
  server.set ok (REDIS_PREFIX ++ sessionNodeCache.sessionid)
    sessionNodeCache.toJson.text CASHE_LONG

/- Read a session's record. -/
def getText
    (ok : Bool)
    (server : RedisServer)
    (sessionId : String) :
    Except Thrown (Option SessionNodeCache) :=
  RedisServer.getPojo SessionNodeCache.fromJson
    (server.get ok (REDIS_PREFIX ++ sessionId))

/- Delete a session's record. -/
def removeText
    (ok : Bool)
    (server : RedisServer)
    (sessionId : String) : RedisServer :=
  server.remove ok (REDIS_PREFIX ++ sessionId)

end SessionCacheImpl

------------------------------------------------------------
-- Calls of the Caches
------------------------------------------------------------

/- What is recorded is a session of some user. -/
abbrev UserSession : Type :=
  { s : SessionNodeCache // s.userid ≠ none }

/- A call of one of the two caches. -/
inductive StoreCall where
| addSession (uid : Option String) (session : UserSession)
| removeSession (uid : Option String) (sessionId : String)
| getUser (userId : Option String)
| saveSession (session : UserSession)
| getSession (sessionId : String)
| deleteSession (sessionId : String)

/- How far a call is, and what it has returned. -/
inductive Progress where
| idle
| fetched (userCache : Option UserCache)
| returned
| returnedUser (userCache : Option UserCache)
| returnedSession (session : Option SessionNodeCache)
| threw (t : Thrown)

namespace Progress

/- What was read, or what was thrown. -/
def ofRead
    {α : Type}
    (goOn : Option α → Progress) :
    Except Thrown (Option α) → Progress
| .ok read => goOn read
| .error t => .threw t

end Progress

/- The commands of the caches on a store. -/
structure Caches (σ : Type) where
  getUser :
    Bool → σ → Option String →
      Except Thrown (Option UserCache)
  saveUser : Bool → σ → UserCache → σ
  getSession :
    Bool → σ → String →
      Except Thrown (Option SessionNodeCache)
  saveSession : Bool → σ → SessionNodeCache → σ
  deleteSession : Bool → σ → String → σ
  tick : σ → σ

/-
  The next command of a call. Users are changed in two: the
  record is read, and the changed one written; a missing
  record is new.
-/
def Caches.command
    {σ : Type}
    (caches : Caches σ)
    (ok : Bool)
    (store : σ) :
    StoreCall → Progress → σ × Progress
| .addSession uid _, .idle =>
    (store, .ofRead .fetched (caches.getUser ok store uid))
| .addSession uid session, .fetched userCache =>
    (caches.saveUser ok store
      ((userCache.getD (UserCache.new uid)).addSession
        session.val),
      .returned)
| .removeSession uid _, .idle =>
    (store, .ofRead .fetched (caches.getUser ok store uid))
| .removeSession uid sessionId, .fetched userCache =>
    (caches.saveUser ok store
      ((userCache.getD (UserCache.new uid)).removeSession
        sessionId),
      .returned)
| .getUser userId, .idle =>
    (store,
      .ofRead .returnedUser
        (caches.getUser ok store userId))
| .saveSession session, .idle =>
    (caches.saveSession ok store session.val, .returned)
| .getSession sessionId, .idle =>
    (store,
      .ofRead .returnedSession
        (caches.getSession ok store sessionId))
| .deleteSession sessionId, .idle =>
    (caches.deleteSession ok store sessionId, .returned)
| _, progress => (store, progress)

/- A store, and how far each call is. -/
structure StoreRun
    (σ κ : Type) where
  store : σ
  progress : κ → Progress

/- Some call issues its next command, or time passes. -/
inductive StoreEvent (κ : Type) where
| command (k : κ) (ok : Bool)
| tick

namespace StoreRun

variable {σ κ : Type}

/- No call has begun. -/
def start (store : σ) : StoreRun σ κ :=
  ⟨store, fun _ => .idle⟩

def next
    [DecidableEq κ]
    (caches : Caches σ)
    (calls : κ → StoreCall)
    (st : StoreRun σ κ) : StoreEvent κ → StoreRun σ κ
| .command k ok =>
    let (store, progress) :=
      caches.command ok st.store (calls k) (st.progress k)
    ⟨store, Function.update st.progress k progress⟩
| .tick => { st with store := caches.tick st.store }

def run
    [DecidableEq κ]
    (caches : Caches σ)
    (calls : κ → StoreCall)
    (store : σ)
    (events : List (StoreEvent κ)) : StoreRun σ κ :=
  events.foldl (next caches calls) (start store)

end StoreRun

/- The caches as they are. -/
def RedisServer.caches : Caches RedisServer where
  getUser := UserCacheImpl.getText
  saveUser := UserCacheImpl.saveText
  getSession := SessionCacheImpl.getText
  saveSession := SessionCacheImpl.saveText
  deleteSession := SessionCacheImpl.removeText
  tick := RedisServer.tick

end NettyCluster

------------------------------------------------------------
-- Records of Users and Sessions
------------------------------------------------------------

namespace NettyCluster

/-
  The records, the time in seconds, and when which keys of
  users and sessions have been set.
-/
structure Records where
  now : Nat := 0
  redis : Redis := .empty
  userSets : List (String × Nat) := []
  sessionSets : List (String × Nat) := []

namespace Records

def saveUser
    (ok : Bool)
    (st : Records)
    (s : UserCache) : Records :=
  RedisHelper.set ok st
    { st with
      redis := UserCacheImpl.save st.redis s
      userSets := (userKey s.userId, st.now) :: st.userSets }

def saveSession
    (ok : Bool)
    (st : Records)
    (s : SessionNodeCache) : Records :=
  RedisHelper.set ok st
    { st with
      redis := SessionCacheImpl.save st.redis s
      sessionSets := (s.sessionid, st.now) :: st.sessionSets }

def deleteSession
    (ok : Bool)
    (st : Records)
    (sessionId : String) : Records :=
  RedisHelper.set ok st
    { st with
      redis := SessionCacheImpl.remove st.redis sessionId }

/- A second passes; keys whose time is up are gone. -/
def tick (st : Records) : Records :=
  { st with
    now := st.now + 1
    redis :=
      st.redis.expire
        (Lease.live UserCacheImpl.CASHE_LONG (st.now + 1)
          st.userSets)
        (Lease.live SessionCacheImpl.CASHE_LONG
          (st.now + 1) st.sessionSets) }

/- The caches as they are meant; no call throws. -/
def caches : Caches Records where
  getUser ok st userId :=
    .ok (FailingRedis.get ok st.redis userId)
  saveUser := saveUser
  getSession ok st sessionId :=
    .ok (RedisHelper.get ok
      (SessionCacheImpl.get st.redis sessionId))
  saveSession := saveSession
  deleteSession := deleteSession
  tick := tick

end Records

namespace StoreRun

variable {κ : Type}

/-
  The calls are as far, have read and returned the same, and
  none has thrown. Under the keys of users and sessions are
  the texts of their records.
-/
structure Refines
    (text : StoreRun RedisServer κ)
    (st : StoreRun Records κ) : Prop where
  progress : text.progress = st.progress
  noThrow : ∀ k t, text.progress k ≠ .threw t
  now : text.store.now = st.store.now
  users :
    ∀ uid,
      text.store.get true
          (UserCacheImpl.REDIS_PREFIX ++ uid) =
        (st.store.redis.users uid).map fun u =>
          u.toJson.text
  sessions :
    ∀ sid,
      text.store.get true
          (SessionCacheImpl.REDIS_PREFIX ++ sid) =
        (st.store.redis.sessions sid).map fun s =>
          s.toJson.text

end StoreRun

end NettyCluster

------------------------------------------------------------
-- Keys and Texts
------------------------------------------------------------

namespace NettyCluster

/- Strings with a common prefix differ after it. -/
theorem append_injective (s : String) :
    Function.Injective (s ++ ·) := by
  intro a b hSame
  have hChars := congrArg String.toList hSame
  simp only [String.toList_append] at hChars
  exact String.toList_inj.mp (List.append_cancel_left hChars)

/- How users are kept. -/
def UserCacheImpl.window :
    KeySpace.Window String UserCache String String where
  key := (UserCacheImpl.REDIS_PREFIX ++ ·)
  encode u := u.toJson.text
  ttl := UserCacheImpl.CASHE_LONG
  key_injective := append_injective _
  ttl_pos := by decide

/- How sessions are kept. -/
def SessionCacheImpl.window :
    KeySpace.Window String SessionNodeCache String String
    where
  key := (SessionCacheImpl.REDIS_PREFIX ++ ·)
  encode s := s.toJson.text
  ttl := SessionCacheImpl.CASHE_LONG
  key_injective := append_injective _
  ttl_pos := by decide

/- The prefixes differ in their first character. -/
theorem prefix_ne
    (uid sid : String) :
    UserCacheImpl.REDIS_PREFIX ++ uid ≠
      SessionCacheImpl.REDIS_PREFIX ++ sid := by
  intro hSame
  have hHead := congrArg (fun s => s.toList.head?) hSame
  simp [UserCacheImpl.REDIS_PREFIX,
    SessionCacheImpl.REDIS_PREFIX] at hHead

namespace RedisServer

variable {α : Type}
variable {fromJson : Json → Option α}

/- What was written is read back. -/
theorem getPojo_text
    (toJson : α → Json)
    (hObject : ∀ a, ∃ fields, toJson a = .obj fields)
    (hRead : ∀ a, fromJson (toJson a) = some a)
    (a : Option α) :
    getPojo fromJson (a.map fun a => (toJson a).text) =
      .ok a := by
  cases a with
  | none => rfl
  | some a =>
      have hText := Json.read_text (toJson a)
      have hFull : (toJson a).text.isEmpty = false := by
        cases hEmpty : (toJson a).text.isEmpty with
        | false => rfl
        | true =>
            rw [String.isEmpty_iff.mp hEmpty] at hText
            cases hText
      rcases hObject a with ⟨fields, hFields⟩
      have hGiven := hRead a
      rw [hFields] at hText hFull hGiven
      simp [getPojo, JsonUtil.jsonToPojo, hFields, hFull,
        hText, hGiven]

/- A cache reads what it should, or null when that fails. -/
theorem getPojo_get
    (toJson : α → Json)
    (hObject : ∀ a, ∃ fields, toJson a = .obj fields)
    (hRead : ∀ a, fromJson (toJson a) = some a)
    (ok : Bool)
    {server : RedisServer}
    {key : String}
    {a : Option α}
    (hStored :
      KeySpace.get server.now server.entries key =
        a.map fun a => (toJson a).text) :
    getPojo fromJson (server.get ok key) =
      .ok (RedisHelper.get ok a) := by
  cases ok with
  | false => rfl
  | true =>
      change getPojo fromJson (KeySpace.get _ _ key) = .ok a
      rw [hStored]
      exact getPojo_text toJson hObject hRead a

end RedisServer

end NettyCluster

------------------------------------------------------------
-- One Command
------------------------------------------------------------

namespace NettyCluster

/-
  What is the same for two stores: what is read from them,
  and that they go on being related when they are changed.
-/
structure Caches.Match
    {σ τ : Type}
    (R : σ → τ → Prop)
    (caches : Caches σ)
    (caches' : Caches τ) : Prop where
  getUser :
    ∀ {s t}, R s t → ∀ ok uid,
      caches.getUser ok s uid = caches'.getUser ok t uid
  saveUser :
    ∀ {s t}, R s t → ∀ ok u,
      R (caches.saveUser ok s u) (caches'.saveUser ok t u)
  getSession :
    ∀ {s t}, R s t → ∀ ok sid,
      caches.getSession ok s sid =
        caches'.getSession ok t sid
  saveSession :
    ∀ {s t}, R s t → ∀ ok r,
      R (caches.saveSession ok s r)
        (caches'.saveSession ok t r)
  deleteSession :
    ∀ {s t}, R s t → ∀ ok sid,
      R (caches.deleteSession ok s sid)
        (caches'.deleteSession ok t sid)
  tick : ∀ {s t}, R s t → R (caches.tick s) (caches'.tick t)

namespace Caches.Match

variable {σ τ κ : Type}
variable {R : σ → τ → Prop}
variable {caches : Caches σ}
variable {caches' : Caches τ}
variable {s : σ}
variable {t : τ}

/- A command answers the same, and keeps them related. -/
theorem command
    (hMatch : Match R caches caches')
    (hRel : R s t)
    (ok : Bool)
    (call : StoreCall)
    (progress : Progress) :
    R (caches.command ok s call progress).1
        (caches'.command ok t call progress).1 ∧
      (caches.command ok s call progress).2 =
        (caches'.command ok t call progress).2 := by
  cases call <;> cases progress <;>
    simp only [Caches.command, hMatch.getUser hRel,
      hMatch.getSession hRel, and_true]
  all_goals first
    | exact hRel
    | exact hMatch.saveUser hRel ok _
    | exact hMatch.saveSession hRel ok _
    | exact hMatch.deleteSession hRel ok _

variable [DecidableEq κ]

/- So does any run. -/
theorem run
    (hMatch : Match R caches caches')
    (hRel : R s t)
    (calls : κ → StoreCall)
    (events : List (StoreEvent κ)) :
    R (StoreRun.run caches calls s events).store
        (StoreRun.run caches' calls t events).store ∧
      (StoreRun.run caches calls s events).progress =
        (StoreRun.run caches' calls t events).progress := by
  unfold StoreRun.run
  induction events using List.reverseRecOn with
  | nil => exact ⟨hRel, rfl⟩
  | append_singleton events event ih =>
      rw [List.foldl_concat, List.foldl_concat]
      rcases ih with ⟨hStore, hProgress⟩
      cases event with
      | command k ok =>
          have hNext := hMatch.command hStore ok (calls k)
            ((events.foldl (StoreRun.next caches calls)
              (StoreRun.start s)).progress k)
          rw [hProgress] at hNext
          refine ⟨?_, ?_⟩
          · simpa [StoreRun.next, hProgress] using hNext.1
          · simpa [StoreRun.next, hProgress] using
              congrArg (Function.update _ k) hNext.2
      | tick => exact ⟨hMatch.tick hStore, hProgress⟩

end Caches.Match

namespace RedisServer

/- The texts are those of the records, as long as set. -/
structure Holds
    (server : RedisServer)
    (st : Records) : Prop where
  now : server.now = st.now
  users :
    KeySpace.Shows UserCacheImpl.window st.now
      server.entries st.redis.users st.userSets
  sessions :
    KeySpace.Shows SessionCacheImpl.window st.now
      server.entries st.redis.sessions st.sessionSets

namespace Holds

variable {server : RedisServer}
variable {st : Records}

theorem start (now : Nat) :
    Holds { now := now } { now := now } where
  now := rfl
  users :=
    { past := nofun
      none := fun _ _ => rfl
      some := nofun }
  sessions :=
    { past := nofun
      none := fun _ _ => rfl
      some := nofun }

/- A change is made in both, or in none. -/
theorem set
    (hHolds : Holds server st)
    (ok : Bool)
    {server' : RedisServer}
    {st' : Records}
    (hHolds' : Holds server' st') :
    Holds (RedisHelper.set ok server server')
      (RedisHelper.set ok st st') := by
  cases ok with
  | true => exact hHolds'
  | false => exact hHolds

theorem saveUser
    (hHolds : Holds server st)
    (ok : Bool)
    (u : UserCache) :
    Holds (UserCacheImpl.saveText ok server u)
      (st.saveUser ok u) := by
  apply hHolds.set ok
  refine ⟨hHolds.now, ?_, ?_⟩
  · rw [hHolds.now]
    exact hHolds.users.setex (userKey u.userId) u
  · exact hHolds.sessions.of_apart
      (fun sid => (prefix_ne _ sid).symm) _

theorem saveSession
    (hHolds : Holds server st)
    (ok : Bool)
    (s : SessionNodeCache) :
    Holds (SessionCacheImpl.saveText ok server s)
      (st.saveSession ok s) := by
  apply hHolds.set ok
  refine ⟨hHolds.now, ?_, ?_⟩
  · exact hHolds.users.of_apart
      (fun uid => prefix_ne uid _) _
  · rw [hHolds.now]
    exact hHolds.sessions.setex s.sessionid s

theorem deleteSession
    (hHolds : Holds server st)
    (ok : Bool)
    (sid : String) :
    Holds (SessionCacheImpl.removeText ok server sid)
      (st.deleteSession ok sid) := by
  apply hHolds.set ok
  refine ⟨hHolds.now, ?_, ?_⟩
  · exact hHolds.users.of_apart
      (fun uid => prefix_ne uid _) _
  · exact hHolds.sessions.del sid

theorem tick
    (hHolds : Holds server st) :
    Holds server.tick st.tick := by
  refine ⟨congrArg (· + 1) hHolds.now, ?_, ?_⟩
  · exact hHolds.users.tick
  · exact hHolds.sessions.tick

/- What is stored under a user's key. -/
theorem get_user
    (hHolds : Holds server st)
    (uid : String) :
    KeySpace.get server.now server.entries
        (UserCacheImpl.REDIS_PREFIX ++ uid) =
      (st.redis.users uid).map fun u => u.toJson.text := by
  rw [hHolds.now]
  exact hHolds.users.get uid

/- What is stored under a session's key. -/
theorem get_session
    (hHolds : Holds server st)
    (sid : String) :
    KeySpace.get server.now server.entries
        (SessionCacheImpl.REDIS_PREFIX ++ sid) =
      (st.redis.sessions sid).map fun s =>
        s.toJson.text := by
  rw [hHolds.now]
  exact hHolds.sessions.get sid

/- The caches do the same with both. -/
theorem caches_match :
    Caches.Match Holds RedisServer.caches Records.caches where
  getUser hHolds ok uid :=
    getPojo_get UserCache.toJson (fun _ => ⟨_, rfl⟩)
      UserCache.fromJson_toJson ok
      (hHolds.get_user (userKey uid))
  saveUser hHolds ok u := hHolds.saveUser ok u
  getSession hHolds ok sid :=
    getPojo_get SessionNodeCache.toJson (fun _ => ⟨_, rfl⟩)
      SessionNodeCache.fromJson_toJson ok
      (hHolds.get_session sid)
  saveSession hHolds ok s := hHolds.saveSession ok s
  deleteSession hHolds ok sid :=
    hHolds.deleteSession ok sid
  tick hHolds := hHolds.tick

end Holds

end RedisServer

------------------------------------------------------------
-- Runs
------------------------------------------------------------

namespace Records

/- A command on records throws nothing. -/
theorem command_noThrow
    {progress : Progress}
    (hBefore : ∀ t, progress ≠ .threw t)
    (ok : Bool)
    (st : Records)
    (call : StoreCall)
    (t : Thrown) :
    (caches.command ok st call progress).2 ≠ .threw t := by
  cases call <;> cases progress <;>
    simp_all [Caches.command, caches, Progress.ofRead]

/- Nor does any call. -/
theorem run_noThrow
    {κ : Type}
    [DecidableEq κ]
    (calls : κ → StoreCall)
    (st : Records)
    (events : List (StoreEvent κ))
    (k : κ)
    (t : Thrown) :
    (StoreRun.run caches calls st events).progress k ≠
      .threw t := by
  unfold StoreRun.run
  induction events using List.reverseRecOn
    generalizing k t with
  | nil => simp [StoreRun.start]
  | append_singleton events event ih =>
      rw [List.foldl_concat]
      cases event with
      | command k' ok =>
          by_cases hSame : k = k'
          · subst hSame
            simpa [StoreRun.next] using
              command_noThrow (ih k) ok _ (calls k) t
          · simpa [StoreRun.next, hSame] using ih k t
      | tick => exact ih k t

end Records

namespace StoreRun

variable {κ : Type}
variable [DecidableEq κ]

/-
  Whatever calls are made, in whatever order their commands
  are issued and fail, and however time passes between them.
-/
theorem refines_run
    (now : Nat)
    (calls : κ → StoreCall)
    (events : List (StoreEvent κ)) :
    Refines
      (run RedisServer.caches calls { now := now } events)
      (run Records.caches calls { now := now } events) := by
  rcases RedisServer.Holds.caches_match.run (.start now)
    calls events with ⟨hHolds, hProgress⟩
  refine ⟨hProgress, ?_, hHolds.now, hHolds.get_user,
    hHolds.get_session⟩
  rw [hProgress]
  exact Records.run_noThrow calls _ events

end StoreRun

end NettyCluster

------------------------------------------------------------
-- Calls of the Cluster
------------------------------------------------------------

namespace NettyCluster

/- A call that issues its commands without a break. -/
def Caches.complete
    {σ : Type}
    (caches : Caches σ)
    (store : σ)
    (call : StoreCall) : σ :=
  let (store, progress) :=
    caches.command true store call .idle
  (caches.command true store call progress).1

/- Complete calls, and a second where there is none. -/
def Caches.serve
    {σ : Type}
    (caches : Caches σ)
    (store : σ) : Option StoreCall → σ
| none => caches.tick store
| some call => caches.complete store call

namespace RedisServer

/- Complete calls keep the texts those of the records. -/
theorem Holds.serve
    {server : RedisServer}
    {st : Records}
    (hHolds : Holds server st)
    (log : List (Option StoreCall)) :
    Holds (log.foldl RedisServer.caches.serve server)
      (log.foldl Records.caches.serve st) := by
  induction log generalizing server st with
  | nil => exact hHolds
  | cons call log ih =>
      apply ih
      cases call with
      | none => exact hHolds.tick
      | some call =>
          have hFirst :=
            caches_match.command hHolds true call .idle
          unfold Caches.serve Caches.complete
          dsimp only
          rw [hFirst.2]
          exact (caches_match.command hFirst.1 true call
            _).1

end RedisServer

namespace Records

variable (st : Records)
variable (uid : Option String)

/- The two commands of a call make the change meant. -/
theorem complete_addSession
    (session : UserSession) :
    caches.complete st (.addSession uid session) =
      { st with
        redis :=
          UserCacheImpl.addSession st.redis uid session.val
        userSets := (userKey uid, st.now) :: st.userSets } := by
  change { st with
    redis := _
    userSets :=
      (userKey (UserCacheImpl.getOrNew st.redis uid).userId,
        st.now) :: st.userSets } = _
  rw [UserCacheImpl.userKey_getOrNew]
  rfl

theorem complete_removeSession
    (sid : String) :
    caches.complete st (.removeSession uid sid) =
      { st with
        redis :=
          UserCacheImpl.removeSession st.redis uid sid
        userSets := (userKey uid, st.now) :: st.userSets } := by
  change { st with
    redis := _
    userSets :=
      (userKey (UserCacheImpl.getOrNew st.redis uid).userId,
        st.now) :: st.userSets } = _
  rw [UserCacheImpl.userKey_getOrNew]
  rfl

end Records

namespace Timed

variable {ι : Type}

/- The store of a cluster in time. -/
def records (st : Timed ι) : Records :=
  ⟨st.now, st.serial.cluster.redis, st.userSets,
    st.sessionSets⟩

variable [DecidableEq ι]
variable (st : Timed ι)
variable (i : ι)
variable (s : LocalSession)
variable (clock : Int → String)

/- A login saves its session and adds it to its user. -/
theorem records_add
    (hUser : s.userid ≠ none) :
    ∃ session : UserSession,
      (st.add i s clock).records =
        [some (.saveSession session),
          some (.addSession s.userid session)].foldl
          Records.caches.serve st.records := by
  refine ⟨⟨SessionManager.nodeCache
    (st.serial.cluster.site i) s, hUser⟩, ?_⟩
  simp only [List.foldl_cons, List.foldl_nil, Caches.serve]
  rw [Records.complete_addSession]
  rfl

/- A logout does nothing, or takes both back. -/
theorem records_close :
    ∃ log : List (Option StoreCall),
      (st.close i s clock).records =
        log.foldl Records.caches.serve st.records := by
  cases hEntry :
      st.serial.cluster.entry i s.sessionId with
  | none =>
      refine ⟨[], ?_⟩
      simp [records, close, hEntry,
        Cluster.close_none _ i s clock hEntry]
  | some session =>
      refine ⟨[some (.removeSession session.getUserIdValue
          s.sessionId),
        some (.deleteSession s.sessionId)], ?_⟩
      simp only [List.foldl_cons, List.foldl_nil,
        Caches.serve]
      rw [Records.complete_removeSession]
      have hLookup :
          (st.serial.cluster.site i).node.sessionMap.lookup
            s.sessionId = some session := hEntry
      simp only [records, close, hEntry, Cluster.close_eq,
        Cluster.setSite_redis, SessionManager.remove, hLookup]
      rfl

/-
  What a cluster has stored is what the texts hold after
  calls of its caches, each made without a break.
-/
theorem served_of_reach
    (hReach : Transition.Reach TimedStart TimedStep st) :
    ∃ (start : Nat) (log : List (Option StoreCall)),
      RedisServer.Holds
        (log.foldl RedisServer.caches.serve { now := start })
        st.records := by
  have hLog :
      ∃ (start : Nat) (log : List (Option StoreCall)),
        st.records =
          log.foldl Records.caches.serve { now := start } := by
    apply hReach.invariant
    · rintro st ⟨hSerial, hUsers, hSessions⟩
      refine ⟨st.now, [], ?_⟩
      simp [records, hSerial.2.2.1, hUsers, hSessions]
    · rintro st st' ⟨start, log, hRecords⟩ hStep
      have hMore :
          ∃ more : List (Option StoreCall), st'.records =
            more.foldl Records.caches.serve st.records := by
        cases hStep with
        | add clock _ hUser =>
            rcases st.records_add _ _ clock hUser with
              ⟨session, hAdd⟩
            exact ⟨_, hAdd⟩
        | close clock _ => exact st.records_close _ _ clock
        | lookup i u => exact ⟨[], rfl⟩
        | heartbeat _ => exact ⟨[], rfl⟩
        | tick => exact ⟨[none], rfl⟩
      rcases hMore with ⟨more, hMore⟩
      refine ⟨start, log ++ more, ?_⟩
      rw [List.foldl_append, ← hRecords, hMore]
  rcases hLog with ⟨start, log, hRecords⟩
  refine ⟨start, log, ?_⟩
  rw [hRecords]
  exact (RedisServer.Holds.start start).serve log

end Timed

end NettyCluster
