import NettyCluster.Lib.Transition
import NettyCluster.Session.Redis

/-
  Concurrent changes of one user's record.

  Adding and removing a session each read the record and
  later write a changed one back. Any number of such calls
  may interleave. No update is lost in the runs in which
  each write finds the sessions of the others as its call
  read them.

  Main declarations:
    * `UserCall`
    * `UserRecord`, `UserRecord.Step`
    * `UserRecord.Settled`
    * `UserRecord.settled_of_undisturbed`
-/

------------------------------------------------------------
-- Calls and Steps
------------------------------------------------------------

namespace NettyCluster

/- A call that changes a user's record. -/
inductive UserCall where
| addSession (session : SessionNodeCache)
| removeSession (sessionId : String)
deriving DecidableEq

namespace UserCall

/- The session a call is about. -/
def sid : UserCall → String
| .addSession session => session.sessionid
| .removeSession sessionId => sessionId

/- The record a call writes for the one it read. -/
def change
    (call : UserCall)
    (userCache : UserCache) : UserCache :=
  match call with
  | .addSession session => userCache.addSession session
  | .removeSession sessionId =>
      userCache.removeSession sessionId

end UserCall

/- How far a call is: not begun, the record read, or done. -/
inductive CallPhase where
| idle
| fetched (read : Option UserCache)
| returned
deriving DecidableEq

/- The shared records and the progress of the calls. -/
structure UserRecord (κ : Type) where
  redis : Redis
  phase : κ → CallPhase

namespace UserRecord

variable {κ : Type}

/- The sessions recorded for a user. -/
def recorded
    (st : UserRecord κ)
    (uid : Option String) : List String :=
  sids (UserCacheImpl.records st.redis uid)

section Calls

variable (uid : Option String)
variable (calls : κ → UserCall)

/- A session has been added by a call that returned. -/
def Added
    (st : UserRecord κ)
    (sid : String) : Prop :=
  ∃ k s, calls k = .addSession s ∧ s.sessionid = sid ∧
    st.phase k = .returned

/- A session has been removed by a call that returned. -/
def Removed
    (st : UserRecord κ)
    (sid : String) : Prop :=
  ∃ k, calls k = .removeSession sid ∧
    st.phase k = .returned

/-
  One store command of one call: read the record, or write
  the changed one. A session is removed only after it was
  added.
-/
inductive Step
    [DecidableEq κ] :
    UserRecord κ → κ → UserRecord κ → Prop where
| get {st k} :
    st.phase k = .idle →
    (∀ sid, calls k = .removeSession sid →
      Added calls st sid) →
    Step st k
      ⟨st.redis,
        Function.update st.phase k
          (.fetched (UserCacheImpl.get st.redis uid))⟩
| setex {st k read} :
    st.phase k = .fetched read →
    Step st k
      ⟨UserCacheImpl.save st.redis
          ((calls k).change
            (read.getD (UserCache.new uid))),
        Function.update st.phase k .returned⟩

/- No session is recorded, and no call has begun. -/
def Start (st : UserRecord κ) : Prop :=
  recorded st uid = [] ∧ ∀ k, st.phase k = .idle

/-
  When all calls have returned, exactly the sessions added
  and not removed are recorded.
-/
def Settled (st : UserRecord κ) : Prop :=
  (∀ k, st.phase k = .returned) →
    ∀ sid, sid ∈ recorded st uid ↔
      (∃ k s, calls k = .addSession s ∧
        s.sessionid = sid) ∧
      ∀ k, calls k ≠ .removeSession sid

/-
  The next step of a call is not disturbed: what it read of
  the other sessions is still what is recorded.
-/
def Undisturbed
    (st : UserRecord κ)
    (k : κ) : Prop :=
  ∀ read, st.phase k = .fetched read →
    ∀ sid, sid ≠ (calls k).sid →
      (sid ∈ sids (read.getD (UserCache.new uid)).map ↔
        sid ∈ recorded st uid)

/- Some call takes a step. -/
def AnyStep
    [DecidableEq κ]
    (st st' : UserRecord κ) : Prop :=
  ∃ k, Step uid calls st k st'

/- Some call takes a step and is not disturbed. -/
def UndisturbedStep
    [DecidableEq κ]
    (st st' : UserRecord κ) : Prop :=
  ∃ k, Step uid calls st k st' ∧ Undisturbed uid calls st k

/- Calls made one after the other are the two commands. -/
theorem setex_after_get
    (redis : Redis)
    (call : UserCall) :
    UserCacheImpl.save redis
        (call.change
          ((UserCacheImpl.get redis uid).getD
            (UserCache.new uid))) =
      match call with
      | .addSession s =>
          UserCacheImpl.addSession redis uid s
      | .removeSession sid =>
          UserCacheImpl.removeSession redis uid sid := by
  cases call <;> rfl

end Calls

end UserRecord

end NettyCluster

------------------------------------------------------------
-- Undisturbed Runs
------------------------------------------------------------

namespace NettyCluster

namespace UserCall

/- The sessions of a changed record. -/
theorem mem_sids_change
    (call : UserCall)
    (u : UserCache)
    (sid : String) :
    sid ∈ sids (call.change u).map ↔
      match call with
      | .addSession s => sid = s.sessionid ∨ sid ∈ sids u.map
      | .removeSession sid' =>
          sid ∈ sids u.map ∧ sid ≠ sid' := by
  cases call with
  | addSession s => exact mem_sids_put u.map s sid
  | removeSession sid' =>
      simp only [change, sids, List.mem_map,
        UserCache.mem_removeSession]
      constructor
      · rintro ⟨r, ⟨hMem, hNe⟩, rfl⟩
        exact ⟨⟨r, hMem, rfl⟩, hNe⟩
      · rintro ⟨⟨r, hMem, rfl⟩, hNe⟩
        exact ⟨r, ⟨hMem, hNe⟩, rfl⟩

theorem change_userId
    (call : UserCall)
    (u : UserCache) :
    (call.change u).userId = u.userId := by
  cases call <;> rfl

end UserCall

namespace UserRecord

variable {κ : Type}
variable {uid : Option String}
variable {calls : κ → UserCall}

/-
  The invariant of undisturbed runs: the sessions recorded
  are those added and not removed so far, removals come
  after their additions, and records read are the user's.
-/
structure Inv
    (uid : Option String)
    (calls : κ → UserCall)
    (st : UserRecord κ) : Prop where
  recorded_iff :
    ∀ sid, sid ∈ recorded st uid ↔
      Added calls st sid ∧ ¬ Removed calls st sid
  added_first :
    ∀ k sid, calls k = .removeSession sid →
      st.phase k ≠ .idle → Added calls st sid
  own_record :
    ∀ k u, st.phase k = .fetched (some u) →
      userKey u.userId = userKey uid

theorem Inv.start
    {st : UserRecord κ}
    (hStart : Start uid st) :
    Inv uid calls st where
  recorded_iff sid := by
    simp [hStart.1, Added, hStart.2]
  added_first k sid _ hPhase := absurd (hStart.2 k) hPhase
  own_record k u hPhase := by
    simp [hStart.2] at hPhase

/- No removal of a session returns before its addition. -/
theorem Inv.not_removed
    {st : UserRecord κ}
    {k : κ}
    (hOnce :
      ∀ k k' s s', calls k = .addSession s →
        calls k' = .addSession s' →
        s.sessionid = s'.sessionid → k = k')
    (hInv : Inv uid calls st)
    {s : SessionNodeCache}
    (hCall : calls k = .addSession s)
    (hActive : st.phase k ≠ .returned) :
    ¬ Removed calls st s.sessionid := by
  intro hRemoved
  rcases hRemoved with ⟨k', hCall', hDone⟩
  rcases hInv.added_first k' _ hCall' (by simp [hDone]) with
    ⟨k'', s', hAdd, hSid, hDone'⟩
  have hEq := hOnce k'' k s' s hAdd hCall hSid
  subst hEq
  exact hActive hDone'

/- A write of what is recorded is not disturbed. -/
theorem undisturbed_of_current
    {st : UserRecord κ}
    {k : κ}
    (hCurrent :
      st.phase k =
        .fetched (UserCacheImpl.get st.redis uid)) :
    Undisturbed uid calls st k := by
  intro read hRead sid _
  rw [hCurrent, CallPhase.fetched.injEq] at hRead
  rw [← hRead]
  change sid ∈ sids (UserCacheImpl.getOrNew st.redis
    uid).map ↔ _
  rw [UserCacheImpl.getOrNew_map, recorded]

/- A read is not disturbed. -/
theorem undisturbed_of_idle
    {st : UserRecord κ}
    {k : κ}
    (hIdle : st.phase k = .idle) :
    Undisturbed uid calls st k := by
  intro read hRead
  simp [hIdle] at hRead

variable [DecidableEq κ]

/- What was added stays added. -/
theorem Added.mono
    {st : UserRecord κ}
    {k : κ}
    {redis : Redis}
    {phase : CallPhase}
    {sid : String}
    (hPhase : st.phase k ≠ .returned)
    (hAdded : Added calls st sid) :
    Added calls
      ⟨redis, Function.update st.phase k phase⟩ sid := by
  rcases hAdded with ⟨k', s, hCall, hSid, hReturned⟩
  refine ⟨k', s, hCall, hSid, ?_⟩
  have hNe : k' ≠ k := by
    rintro rfl
    exact hPhase hReturned
  simpa [hNe] using hReturned

/- A step that reads changes nothing that is recorded. -/
theorem Inv.get
    {st : UserRecord κ}
    {k : κ}
    (hInv : Inv uid calls st)
    (hIdle : st.phase k = .idle)
    (hFirst :
      ∀ sid, calls k = .removeSession sid →
        Added calls st sid) :
    Inv uid calls
      ⟨st.redis,
        Function.update st.phase k
          (.fetched (UserCacheImpl.get st.redis uid))⟩ := by
  have hReturned :
      ∀ k',
        Function.update st.phase k
            (.fetched (UserCacheImpl.get st.redis uid)) k' =
          .returned ↔ st.phase k' = .returned := by
    intro k'
    by_cases hSame : k' = k
    · subst hSame
      simp [hIdle]
    · simp [hSame]
  have hActive : st.phase k ≠ .returned := by
    simp [hIdle]
  constructor
  case recorded_iff =>
    intro sid
    simp only [Added, Removed, hReturned]
    exact hInv.recorded_iff sid
  case added_first =>
    intro k' sid hCall hPhase
    by_cases hSame : k' = k
    · subst hSame
      exact (hFirst sid hCall).mono hActive
    · refine (hInv.added_first k' sid hCall ?_).mono hActive
      simpa [hSame] using hPhase
  case own_record =>
    intro k' u hPhase
    by_cases hSame : k' = k
    · subst hSame
      simp only [Function.update_self,
        CallPhase.fetched.injEq] at hPhase
      exact st.redis.users_key _ u hPhase
    · exact hInv.own_record k' u (by simpa [hSame] using hPhase)

/- The sessions recorded after a write. -/
theorem mem_recorded_setex
    {st : UserRecord κ}
    {k : κ}
    {read : Option UserCache}
    (hInv : Inv uid calls st)
    (hFetched : st.phase k = .fetched read)
    (hSame : Undisturbed uid calls st k)
    (sid : String) :
    sid ∈ recorded
        ⟨UserCacheImpl.save st.redis
            ((calls k).change
              (read.getD (UserCache.new uid))),
          Function.update st.phase k .returned⟩ uid ↔
      match calls k with
      | .addSession s =>
          sid = s.sessionid ∨ sid ∈ recorded st uid
      | .removeSession sid' =>
          sid ∈ recorded st uid ∧ sid ≠ sid' := by
  have hKey :
      userKey ((calls k).change
        (read.getD (UserCache.new uid))).userId =
          userKey uid := by
    rw [UserCall.change_userId]
    cases read with
    | none => rfl
    | some u => exact hInv.own_record k u hFetched
  have hOthers := hSame read hFetched sid
  rw [recorded, UserCacheImpl.records_save, hKey, if_pos rfl,
    UserCall.mem_sids_change]
  cases hCall : calls k with
  | addSession s =>
      by_cases hSid : sid = s.sessionid
      · simp [hSid]
      · rw [hCall] at hOthers
        simp only [hSid, false_or]
        exact hOthers hSid
  | removeSession sid' =>
      by_cases hSid : sid = sid'
      · simp [hSid]
      · rw [hCall] at hOthers
        simp only [ne_eq, hSid, not_false_eq_true, and_true]
        exact hOthers hSid

section Setex

variable {st : UserRecord κ}
variable {k : κ}
variable (redis : Redis)

/- The sessions added once a call has returned. -/
theorem added_setex
    (sid : String) :
    Added calls
        ⟨redis, Function.update st.phase k .returned⟩ sid ↔
      (∃ s, calls k = .addSession s ∧ s.sessionid = sid) ∨
        Added calls st sid := by
  constructor
  · intro hAdded
    rcases hAdded with ⟨k', s, hCall, hSid, hDone⟩
    by_cases hEq : k' = k
    · subst hEq
      exact Or.inl ⟨s, hCall, hSid⟩
    · exact Or.inr
        ⟨k', s, hCall, hSid, by simpa [hEq] using hDone⟩
  · intro hEither
    rcases hEither with
      ⟨s, hCall, hSid⟩ | ⟨k', s, hCall, hSid, hDone⟩
    · exact ⟨k, s, hCall, hSid, by simp⟩
    · refine ⟨k', s, hCall, hSid, ?_⟩
      by_cases hEq : k' = k <;> simp [hEq, hDone]

/- The sessions removed once a call has returned. -/
theorem removed_setex
    (sid : String) :
    Removed calls
        ⟨redis, Function.update st.phase k .returned⟩ sid ↔
      calls k = .removeSession sid ∨
        Removed calls st sid := by
  constructor
  · intro hRemoved
    rcases hRemoved with ⟨k', hCall, hDone⟩
    by_cases hEq : k' = k
    · subst hEq
      exact Or.inl hCall
    · exact Or.inr
        ⟨k', hCall, by simpa [hEq] using hDone⟩
  · intro hEither
    rcases hEither with hCall | ⟨k', hCall, hDone⟩
    · exact ⟨k, hCall, by simp⟩
    · refine ⟨k', hCall, ?_⟩
      by_cases hEq : k' = k <;> simp [hEq, hDone]

/- A step that writes keeps the other calls' sessions. -/
theorem Inv.setex
    {read : Option UserCache}
    (hOnce :
      ∀ k k' s s', calls k = .addSession s →
        calls k' = .addSession s' →
        s.sessionid = s'.sessionid → k = k')
    (hInv : Inv uid calls st)
    (hFetched : st.phase k = .fetched read)
    (hSame : Undisturbed uid calls st k) :
    Inv uid calls
      ⟨UserCacheImpl.save st.redis
          ((calls k).change
            (read.getD (UserCache.new uid))),
        Function.update st.phase k .returned⟩ := by
  have hActive : st.phase k ≠ .returned := by
    simp [hFetched]
  constructor
  case recorded_iff =>
    intro sid
    rw [mem_recorded_setex hInv hFetched hSame, added_setex,
      removed_setex]
    have hOld := hInv.recorded_iff sid
    cases hCall : calls k with
    | addSession s =>
        have hKept := hInv.not_removed hOnce hCall hActive
        simp only [UserCall.addSession.injEq,
          exists_eq_left', reduceCtorEq, false_or]
        by_cases hSid : sid = s.sessionid
        · subst hSid
          simp [hKept]
        · simp [hSid, Ne.symm hSid, hOld]
    | removeSession sid' =>
        simp only [reduceCtorEq, false_and, exists_false,
          false_or, UserCall.removeSession.injEq]
        by_cases hSid : sid = sid'
        · simp [hSid]
        · simp [hSid, Ne.symm hSid, hOld]
  case added_first =>
    intro k' sid hCall hPhase
    by_cases hEq : k' = k
    · subst hEq
      exact (hInv.added_first k' sid hCall
        (by simp [hFetched])).mono hActive
    · refine (hInv.added_first k' sid hCall ?_).mono hActive
      simpa [hEq] using hPhase
  case own_record =>
    intro k' u hPhase
    by_cases hEq : k' = k
    · simp [hEq] at hPhase
    · exact hInv.own_record k' u (by simpa [hEq] using hPhase)

end Setex

/-
  In every run in which each write finds the other sessions
  as its call read them, no update is lost.
-/
theorem settled_of_undisturbed
    (uid : Option String)
    (calls : κ → UserCall)
    (hOnce :
      ∀ k k' s s', calls k = .addSession s →
        calls k' = .addSession s' →
        s.sessionid = s'.sessionid → k = k')
    (st : UserRecord κ)
    (hReach :
      Transition.Reach (Start uid)
        (UndisturbedStep uid calls) st) :
    Settled uid calls st := by
  have hInv : Inv uid calls st := by
    refine hReach.invariant (fun _ hStart => .start hStart)
      ?_
    intro st st' hInv hNext
    rcases hNext with ⟨k, hStep, hSame⟩
    cases hStep with
    | get hIdle hFirst => exact hInv.get hIdle hFirst
    | setex hFetched =>
        exact hInv.setex hOnce hFetched hSame
  intro hAll sid
  rw [hInv.recorded_iff]
  simp only [Added, Removed, hAll, and_true]
  simp

/- A call that runs alone is not disturbed. -/
theorem reach_call_alone
    {init : UserRecord κ → Prop}
    {st : UserRecord κ}
    (k : κ)
    (hReach :
      Transition.Reach init (UndisturbedStep uid calls) st)
    (hIdle : st.phase k = .idle)
    (hFirst :
      ∀ sid, calls k = .removeSession sid →
        Added calls st sid) :
    Transition.Reach init (UndisturbedStep uid calls)
      ⟨UserCacheImpl.save st.redis
          ((calls k).change
            (UserCacheImpl.getOrNew st.redis uid)),
        Function.update st.phase k .returned⟩ := by
  have hRead := hReach.step
    ⟨k, .get hIdle hFirst, undisturbed_of_idle hIdle⟩
  have hFetched :
      Function.update st.phase k
          (.fetched (UserCacheImpl.get st.redis uid)) k =
        .fetched (UserCacheImpl.get st.redis uid) := by
    simp
  have hWritten := hRead.step
    ⟨k, .setex hFetched, undisturbed_of_current hFetched⟩
  rw [Function.update_idem] at hWritten
  exact hWritten

/- Two sessions of a user, added one after the other. -/
theorem settled_one_after_other :
    Settled (some "u")
      (fun b => .addSession
        ⟨some "u", if b then "a" else "b", {}⟩)
      ⟨UserCacheImpl.addSession
          (UserCacheImpl.addSession Redis.empty (some "u")
            ⟨some "u", "a", {}⟩)
          (some "u") ⟨some "u", "b", {}⟩,
        Function.update (Function.update
          (fun _ => .idle) true .returned) false
            .returned⟩ := by
  have hStart :
      Start (some "u")
        (⟨Redis.empty, fun _ => .idle⟩ : UserRecord Bool) :=
    ⟨rfl, fun _ => rfl⟩
  refine settled_of_undisturbed (some "u") _ ?_ _ ?_
  · intro k k' s s' hCall hCall' hSid
    simp only [UserCall.addSession.injEq] at hCall hCall'
    subst hCall hCall'
    cases k <;> cases k' <;> simp_all
  · exact reach_call_alone false
      (reach_call_alone true (.init hStart) rfl (by simp))
      rfl (by simp)

/- Of two sessions added at once one is lost. -/
theorem added_session_lost :
    ¬ ∀ (calls : Bool → UserCall) (st : UserRecord Bool),
      (∀ k k' s s', calls k = .addSession s →
        calls k' = .addSession s' →
        s.sessionid = s'.sessionid → k = k') →
      Transition.Reach (Start (some "u"))
        (AnyStep (some "u") calls) st →
      Settled (some "u") calls st := by
  intro hAll
  let calls : Bool → UserCall := fun b => .addSession
    ⟨some "u", if b then "a" else "b", {}⟩
  have hStart :
      Start (some "u")
        (⟨Redis.empty, fun _ => .idle⟩ : UserRecord Bool) :=
    ⟨rfl, fun _ => rfl⟩
  -- both calls read before either writes
  have hRead :
      Transition.Reach (Start (some "u"))
        (AnyStep (some "u") calls)
        ⟨Redis.empty,
          Function.update (Function.update (fun _ => .idle)
            true (.fetched none)) false (.fetched none)⟩ :=
    .step
      (.step (.init hStart)
        ⟨true, .get rfl (by simp [calls])⟩)
      ⟨false, .get rfl (by simp [calls])⟩
  have hReach := (hRead.step ⟨true, .setex rfl⟩).step
    ⟨false, .setex rfl⟩
  have hSettled := hAll calls _ (by
    intro k k' s s' hCall hCall' hSid
    simp only [calls, UserCall.addSession.injEq]
      at hCall hCall'
    subst hCall hCall'
    cases k <;> cases k' <;> simp_all) hReach
  have hLost := (hSettled (by intro k; cases k <;> rfl)
    "a").mpr
    ⟨⟨true, _, rfl, rfl⟩, by simp [calls]⟩
  revert hLost
  decide

end UserRecord

end NettyCluster
